import BeeProtocol.Proofs.Link.Outcomes
import BeeProtocol.Proofs.Link.Outgoing
import BeeProtocol.Proofs.Link.OwnReplies

/-!
# Calls that ask to connect

A call that asks to connect writes its request and waits for the reply. Every turn of it leaves it
waiting, or ends it in one of a few ways, each for a reason that can be read off the link and off
what was handed to the handler of the reply. How it ends decides what becomes of the phase.
-/

namespace BeeProtocol

namespace Layout

/-- Values are refused for a reason of one of them. -/
theorem refusal_of_values {values : List Value} {reason : ProtocolError}
    (h : refusal? (values.map valueField) = some reason) : ∃ error, reason = .value error := by
  induction values with
  | nil => cases h
  | cons value values ih =>
    rw [List.map_cons] at h
    unfold valueField at h
    cases hvalue : value.encode with
    | error error =>
      rw [hvalue] at h
      exact ⟨error, (Option.some.inj h).symm⟩
    | ok bytes =>
      rw [hvalue] at h
      exact ih h

end Layout

namespace Message

/-- Where a connect response is expected, a payload holds nothing else. -/
theorem exists_connectResponse {payload : List UInt8} {message : Message}
    (h : Message.decode .connectResponse payload = .ok message) :
    ∃ response, message = .connectResponse response := by
  unfold decode parser at h
  rw [Parser.parse_map] at h
  cases hparse : ConnectResponse.parser.parse payload with
  | error reason => rw [hparse] at h; cases h
  | ok response =>
    rw [hparse] at h
    exact ⟨response, (Except.ok.inj h).symm⟩

/-- A message without a frame is refused for the same reason. -/
theorem refusal_of_toFrame {message : Message} {reason : ProtocolError}
    (h : message.toFrame = .error reason) : message.layout.refusal? = some reason := by
  unfold toFrame encode at h
  cases hrefusal : message.layout.refusal? with
  | none => rw [hrefusal] at h; cases h
  | some error =>
    rw [hrefusal] at h
    cases h
    rfl

/-- A connect request that cannot be written fails like a reply that cannot be read. -/
theorem ofProtocol_of_connectRequest {request : ConnectRequest} {reason : ProtocolError}
    (h : (Message.connectRequest request).toFrame = .error reason) :
    ClientError.ofProtocol reason = .decode reason.message := by
  have hrefused : Layout.refusal?
      ([.string request.url, .string request.application].map valueField) = some reason :=
    refusal_of_toFrame h
  obtain ⟨error, rfl⟩ := Layout.refusal_of_values hrefused
  rfl

end Message

namespace Stage

/-- The reply that a call waits for that asks to connect, once it is opened, and the bound of the
wait. -/
def handshake? : Stage → Option (Nat × Duration)
  | sending (.reply key bound .handshake) _ => some (key, bound)
  | replying key bound .handshake _ => some (key, bound)
  | _ => none

/-- Whether a call asks to connect. -/
def isHandshake : Stage → Bool
  | called (.handshake _ _) => true
  | stage => stage.handshake?.isSome

/-- A call in a handshake asks for the reply of it. -/
theorem asks_of_handshake {stage : Stage} {key : Nat} {bound : Duration}
    (h : stage.handshake? = some (key, bound)) : stage.asks? = some key := by
  unfold handshake? at h
  split at h
  · cases h
    rfl
  · cases h
    rfl
  · cases h

/-- A handshake counts as a use of the link. -/
theorem usesWriter_of_isHandshake {stage : Stage} (h : stage.isHandshake) :
    stage.usesWriter ∧ stage.isPinging = false := by
  cases stage with
  | called call => cases call <;> first | exact ⟨rfl, rfl⟩ | cases h
  | sending purpose step => cases purpose <;> first | exact ⟨rfl, rfl⟩ | cases h
  | replying key bound use deadline => exact ⟨rfl, rfl⟩
  | _ => cases h

end Stage

/-- The phase of a link after a call that asked to connect has ended with a result. -/
def LinkPhase.after (phase : LinkPhase) : LinkResult → LinkPhase
  | .ok => if phase = .connecting then .opened else phase
  | .failed (.connection _) => .closed
  | _ => phase

namespace Link

variable {s : Link} {action : Action} {t key : Nat} {label : Option Nat} {stage : Stage}
  {bound : Duration} {deadline : Nat} {result : LinkResult} {handed : Nat → List (List UInt8)}

/-! ### How a handshake ends -/

/-- Whether a call at this step writes out the out-buffer in its next turn. -/
def flushesAt (s : Link) : SendStep → Bool
  | .inLine _ _ => false
  | .holding _ => Writer.boundary ≤ s.writer.outbox.length
  | .flushing => true

/-- What a call that asks to connect ends with in its next turn, and why, given the payloads that
were handed to the handlers of the replies. -/
inductive EndsHandshake (s : Link) (handed : Nat → List (List UInt8)) (t : Nat) :
    Stage → LinkResult → Prop
  /-- The limit for the wait is out of range. -/
  | unbounded {application url : String} {reason : DurationOverflow}
    (hbound : s.config.handshakeTimeout = .error reason) :
    EndsHandshake s handed t (.called (.handshake application url)) (.overflow reason)
  | unwritable {application url : String} {bound : Duration} {reason : ProtocolError}
    (hbound : s.config.handshakeTimeout = .ok bound)
    (hframe : (Message.connectRequest ⟨url, application⟩).toFrame = .error reason) :
    EndsHandshake s handed t (.called (.handshake application url))
      (.failed (.decode reason.message))
  | tooLarge {application url : String} {bound : Duration} {frame : Frame}
    (hbound : s.config.handshakeTimeout = .ok bound)
    (hframe : (Message.connectRequest ⟨url, application⟩).toFrame = .ok frame)
    (hsize : s.codec.limit < frame.payload.length) :
    EndsHandshake s handed t (.called (.handshake application url))
      (.failed (.decode
        (ProtocolError.frameTooLarge frame.payload.length s.codec.limit).message))
  /-- It gets the writer of a closed link. -/
  | refused {key : Nat} {bound : Duration} {frame : Frame} {handler : Option Handler}
    (hwriter : s.hasWriter t) (hclosed : s.isClosed) :
    EndsHandshake s handed t (.sending (.reply key bound .handshake) (.inLine frame handler))
      (.failed .connectionClosed)
  /-- The stream fails to take its bytes. -/
  | unwritten {key : Nat} {bound : Duration} {step : SendStep} {reason : String}
    (hflushes : s.flushesAt step) (hfailed : s.writer.flush.2 = .failed reason) :
    EndsHandshake s handed t (.sending (.reply key bound .handshake) step)
      (.failed (.connection reason))
  /-- No reply has come in time. -/
  | late {key : Nat} {bound : Duration} {deadline : Nat}
    (hbound : s.config.handshakeTimeout = .ok bound) (hhanded : handed key = [])
    (hnone : s.outcome? key = none) (hdue : Clock.isDue s.now deadline) :
    EndsHandshake s handed t (.replying key bound .handshake deadline)
      (.failed (replyTimeout bound))
  /-- The link was closed before a reply came. -/
  | lost {key : Nat} {bound : Duration} {deadline : Nat} (hhanded : handed key = [])
    (hlost : s.outcome? key = some (.error .connectionClosed)) (hclosed : s.isClosed) :
    EndsHandshake s handed t (.replying key bound .handshake deadline)
      (.failed .connectionClosed)
  | malformed {key : Nat} {bound : Duration} {deadline : Nat} {payload : List UInt8}
    {reason : ProtocolError} (hhanded : handed key = [payload])
    (hdecode : Message.decode .connectResponse payload = .error reason) :
    EndsHandshake s handed t (.replying key bound .handshake deadline)
      (.failed (.decode reason.message))
  | rejected {key : Nat} {bound : Duration} {deadline : Nat} {payload : List UInt8}
    {error : ServerError} (hhanded : handed key = [payload])
    (hdecode : Message.decode .connectResponse payload = .ok (.connectResponse (.rejected error)))
    (hcode : error.code ≠ 0) :
    EndsHandshake s handed t (.replying key bound .handshake deadline)
      (.failed (.application error))
  | accepted {key : Nat} {bound : Duration} {deadline : Nat} {payload : List UInt8}
    {response : ConnectResponse} (hhanded : handed key = [payload])
    (hdecode : Message.decode .connectResponse payload = .ok (.connectResponse response))
    (haccepts : response.isAccepted) :
    EndsHandshake s handed t (.replying key bound .handshake deadline) .ok

/-- What is known of the calls that ask to connect: the replies that they wait for are connect
responses, and decided by what was handed to their handlers; the bound is the configured one. -/
structure Handshakes (s : Link) (handed : Nat → List (List UInt8)) : Prop where
  /-- A call that asks to connect waits for a connect response, under the configured bound. -/
  stages : ∀ stage ∈ s.roster.stages, ∀ key bound, stage.handshake? = some (key, bound) →
    s.isConnect key ∧ s.config.handshakeTimeout = .ok bound
  /-- Every reply is decided by what its handler was handed. -/
  reckons : ∀ key, s.Reckons key (handed key)
  /-- The frames in the line fit. -/
  fit : s.IsFit

/-- What has come of the reply to a handshake. -/
theorem Handshakes.outcome_cases (h : s.Handshakes handed) (hmem : stage ∈ s.roster.stages)
    (hhandshake : stage.handshake? = some (key, bound)) :
    handed key = [] ∧ s.outcome? key = none ∨
      handed key = [] ∧ s.outcome? key = some (.error .connectionClosed) ∧ s.isClosed ∨
        ∃ payload, handed key = [payload] ∧
          s.outcome? key = some (MessageKind.connectResponse.outcomeOf payload) := by
  have hreckons := h.reckons key
  generalize handed key = payloads at hreckons ⊢
  cases hreckons with
  | unheard hunheard =>
    rcases hunheard with hnone | ⟨hlost, hover⟩
    · exact .inl ⟨rfl, hnone⟩
    · refine .inr (.inl ⟨rfl, hlost, hover.resolve_right fun hnobody => ?_⟩)
      obtain ⟨t, hstage⟩ := List.mem_iff_getElem?.mp hmem
      have hasked := Roster.asked_pos hstage (Stage.asks_of_handshake hhandshake)
      omega
  | heard hreply houtcome =>
    refine .inr (.inr ⟨_, rfl, ?_⟩)
    rw [← mayConnect_of_isConnect (h.stages stage hmem key bound hhandshake).1 _ hreply, outcome?,
      hreply, Option.bind_some, houtcome]

/-- The payload that a handshake was handed is its outcome. -/
theorem Handshakes.outcome_of_handed (h : s.Handshakes handed) (hmem : stage ∈ s.roster.stages)
    (hhandshake : stage.handshake? = some (key, bound)) {payload : List UInt8}
    (hhanded : handed key = [payload]) :
    s.outcome? key = some (MessageKind.connectResponse.outcomeOf payload) := by
  rcases h.outcome_cases hmem hhandshake with ⟨hnone, -⟩ | ⟨hnone, -⟩ | ⟨other, hother, houtcome⟩
  · cases hnone.symm.trans hhanded
  · cases hnone.symm.trans hhanded
  · cases hother.symm.trans hhanded
    exact houtcome

/-! ### One turn -/

/-- The link as a call begins its turn. -/
def woken (s : Link) (t : Nat) : Link := { s with ready := s.ready.erase (.task t) }

/-- The first turn of a call begins it. -/
theorem taskTurn_called {call : LinkCall}
    (htask : s.tasks[t]? = some ⟨label, .called call, false⟩) :
    (s.woken t).taskTurn t = (s.woken t).beginCall t call := by
  unfold taskTurn
  rw [show (s.woken t).tasks[t]? = some ⟨label, .called call, false⟩ from htask]
  rfl

/-- The first turn of a call that asks to connect under a bound. -/
theorem taskTurn_handshake {application url : String}
    (htask : s.tasks[t]? = some ⟨label, .called (.handshake application url), false⟩)
    (hbound : s.config.handshakeTimeout = .ok bound) :
    (s.woken t).taskTurn t =
      (s.woken t).beginRequest t (.connectRequest ⟨url, application⟩) .connectResponse bound
        .handshake := by
  rw [taskTurn_called htask]
  dsimp only [beginCall]
  rw [show (s.woken t).config.handshakeTimeout = .ok bound from hbound]
  rfl

/-- The turn of a call that writes is a step of the writing. -/
theorem taskTurn_sending {purpose : Purpose} {step : SendStep}
    (htask : s.tasks[t]? = some ⟨label, .sending purpose step, false⟩) :
    (s.woken t).taskTurn t = (s.woken t).sendTurn t purpose step := by
  unfold taskTurn
  rw [show (s.woken t).tasks[t]? = some ⟨label, .sending purpose step, false⟩ from htask]
  rfl

/-- The turn of a call that waits for a reply looks for the reply. -/
theorem taskTurn_replying {use : ReplyUse}
    (htask : s.tasks[t]? = some ⟨label, .replying key bound use deadline, false⟩) :
    (s.woken t).taskTurn t = ((s.woken t).replyTurn t key bound use deadline, false) := by
  unfold taskTurn
  rw [show (s.woken t).tasks[t]? = some ⟨label, .replying key bound use deadline, false⟩ from htask]
  rfl

/-- A handshake that has its reply is concluded by it. -/
theorem replyTurn_of_ok {message : Message} (h : s.outcome? key = some (.ok message)) :
    s.replyTurn t key bound .handshake deadline =
      (s.unregister (.reply key)).concludeHandshake t message := by
  unfold replyTurn
  rw [← outcome?, h]

/-- A handshake whose reply has failed fails for the same reason. -/
theorem replyTurn_of_error {reason : ClientError} (h : s.outcome? key = some (.error reason)) :
    s.replyTurn t key bound .handshake deadline =
      (s.unregister (.reply key)).conclude t (.failed reason) := by
  unfold replyTurn
  rw [← outcome?, h]

/-- A handshake without a reply fails once its deadline is past. -/
theorem replyTurn_of_none (h : s.outcome? key = none) :
    s.replyTurn t key bound .handshake deadline =
      if Clock.isDue s.now deadline then
        (s.unregister (.reply key)).conclude t (.failed (replyTimeout bound))
      else s := by
  unfold replyTurn
  rw [← outcome?, h]

/-- A link that fails stays with its owner. -/
theorem fail_isHeld (s : Link) : s.fail.isHeld = s.isHeld := s.wakes_fail.isHeld

/-- A link whose call `t` is about to end: nobody has ended yet, and the phase is settled. -/
structure Remains (s : Link) (t : Nat) (label : Option Nat) (phase : LinkPhase) (next : Link) :
    Prop where
  /-- No call has ended. -/
  finished : next.finished = s.finished
  /-- The call still reports to the same one. -/
  label : (next.tasks.map (·.label))[t]? = some label
  /-- The phase is settled. -/
  phase : next.phase = phase
  /-- The owner is the same. -/
  held : next.isHeld = s.isHeld

namespace Remains

variable {phase : LinkPhase} {next last : Link}

/-- A call remains about to end if neither its result nor the ledger changes. -/
theorem of_same (h : s.Remains t label phase next) (hsame : next.SameOutcome last)
    (hledger : last.ledger = next.ledger) (hheld : last.isHeld = next.isHeld) :
    s.Remains t label phase last where
  finished := hsame.finished.trans h.finished
  label := hsame.labels ▸ h.label
  phase := (congrArg Ledger.phase hledger).trans h.phase
  held := hheld.trans h.held

/-- A call remains about to end when its purpose is given up. -/
theorem giveUp (h : s.Remains t label phase next) (purpose : Purpose) :
    s.Remains t label phase (next.giveUp purpose) :=
  h.of_same (next.sameOutcome_giveUp purpose) (next.ledger_giveUp purpose)
    (next.spares_giveUp purpose).isHeld

/-- A call remains about to end when a handler is let go of. -/
theorem letGo (h : s.Remains t label phase next) (handler : Handler) :
    s.Remains t label phase (next.letGo handler) :=
  h.of_same (next.sameOutcome_letGo handler) (next.ledger_letGo handler)
    (next.spares_letGo handler).isHeld

/-- A call remains about to end when it leaves the line. -/
theorem leaveLine (h : s.Remains t label phase next) :
    s.Remains t label phase (next.leaveLine t) :=
  h.of_same (next.sameOutcome_leaveLine t) (next.ledger_leaveLine t)
    (next.spares_leaveLine t).isHeld

/-- A call remains about to end when the link is closed. -/
theorem fail (h : s.Remains t label phase next) : s.Remains t label .closed next.fail where
  finished := (sameOutcome_fail next).finished.trans h.finished
  label := (sameOutcome_fail next).labels ▸ h.label
  phase := congrArg Ledger.phase next.ledger_fail
  held := next.fail_isHeld.trans h.held

/-- A link that is connecting is open from when the call is accepted, and may start to send pings
then. -/
theorem opened (h : s.Remains t label s.phase next) :
    s.Remains t label (s.phase.after .ok) next.markOpen.startKeepAlive := by
  have hopened := next.sameOutcome_markOpen
  have hstarted := finished_startKeepAlive (hopened.labels ▸ h.label)
  have hphase : next.markOpen.phase = next.phase.after .ok := by
    unfold markOpen LinkPhase.after
    split <;> rfl
  refine ⟨hstarted.1.trans (hopened.finished.trans h.finished), hstarted.2, ?_, ?_⟩
  · rw [← h.phase, ← hphase]
    exact congrArg Ledger.phase next.markOpen.ledger_startKeepAlive
  · exact ((next.spares_markOpen.trans (spares_startKeepAlive _)).isHeld).trans h.held

end Remains

/-- A call that fails while it waits for its reply only takes its handler off the queue. -/
theorem EndsHandshake.taskTurn_of_fails
    (h : s.EndsHandshake handed t (.replying key bound .handshake deadline) result)
    (hknown : s.Handshakes handed)
    (htask : s.tasks[t]? = some ⟨label, .replying key bound .handshake deadline, false⟩)
    (hfails : result ≠ .ok) :
    (s.woken t).taskTurn t = (((s.woken t).unregister (.reply key)).conclude t result, false) := by
  have hmem : .replying key bound .handshake deadline ∈ s.roster.stages :=
    List.mem_of_getElem? (stage_of_task htask)
  rw [taskTurn_replying htask]
  cases h with
  | late hbound hhanded hnone hdue =>
    rw [replyTurn_of_none (s := s.woken t) hnone]
    exact congrArg (·, false) (if_pos hdue)
  | lost hhanded hlost hclosed => rw [replyTurn_of_error (s := s.woken t) hlost]
  | malformed hhanded hdecode =>
    have houtcome := hknown.outcome_of_handed hmem rfl hhanded
    rw [MessageKind.outcomeOf, hdecode] at houtcome
    rw [replyTurn_of_error (s := s.woken t) houtcome]
  | rejected hhanded hdecode hcode =>
    have houtcome := hknown.outcome_of_handed hmem rfl hhanded
    rw [MessageKind.outcomeOf, hdecode] at houtcome
    rw [replyTurn_of_ok (s := s.woken t) houtcome]
    dsimp only [concludeHandshake]
    rw [if_neg hcode]
  | accepted => exact absurd rfl hfails

/-- A call that is woken still remains. -/
theorem remains_woken (htask : s.tasks[t]? = some ⟨label, stage, false⟩) :
    s.Remains t label s.phase (s.woken t) := by
  refine ⟨rfl, ?_, rfl, rfl⟩
  rw [List.getElem?_map, show (s.woken t).tasks[t]? = _ from htask]
  rfl

/-- A call whose request is too large lets go of its handler. -/
theorem taskTurn_of_tooLarge {application url : String} {frame : Frame}
    (htask : s.tasks[t]? = some ⟨label, .called (.handshake application url), false⟩)
    (hbound : s.config.handshakeTimeout = .ok bound)
    (hframe : (Message.connectRequest ⟨url, application⟩).toFrame = .ok frame)
    (hsize : s.codec.limit < frame.payload.length) :
    ∃ next, s.Remains t label s.phase next ∧
      (s.woken t).taskTurn t =
        (next.conclude t
          (.failed (.ofProtocol (.frameTooLarge frame.payload.length s.codec.limit))), false) := by
  let opened : Link := (s.woken t).addReply .connectResponse
  let handler : Handler := .reply s.replies.length
  have hopened : s.Remains t label s.phase opened := ⟨rfl, (remains_woken htask).label, rfl, rfl⟩
  refine ⟨_, (hopened.letGo handler).giveUp (.reply s.replies.length bound .handshake), ?_⟩
  rw [taskTurn_handshake htask hbound]
  unfold beginRequest
  rw [hframe]
  exact if_pos hsize

/-- A call that gets the writer of a closed link lets go of its handler. -/
theorem taskTurn_of_refused {purpose : Purpose} {frame : Frame} {handler : Option Handler}
    (htask : s.tasks[t]? = some ⟨label, .sending purpose (.inLine frame handler), false⟩)
    (hwriter : s.hasWriter t) (hclosed : s.isClosed) :
    ∃ next, s.Remains t label s.phase next ∧
      (s.woken t).taskTurn t = (next.conclude t (.failed .connectionClosed), false) := by
  have hfailed : s.Remains t label s.phase (handler.elim (s.woken t) (s.woken t).register) := by
    cases handler with
    | none => exact remains_woken htask
    | some handler =>
      rw [Option.elim_some, (s.woken t).register_of_isClosed hclosed]
      exact (remains_woken htask).letGo handler
  refine ⟨_, hfailed.leaveLine.giveUp purpose, ?_⟩
  rw [taskTurn_sending htask]
  exact (if_pos (show (s.woken t).hasWriter t from hwriter)).trans (if_pos hclosed)

/-- A call that cannot write closes the link. -/
theorem taskTurn_of_unwritten {purpose : Purpose} {step : SendStep} {reason : String}
    (htask : s.tasks[t]? = some ⟨label, .sending purpose step, false⟩)
    (hflushes : s.flushesAt step) (hfailed : s.writer.flush.2 = .failed reason) :
    ∃ next, s.Remains t label .closed next ∧
      (s.woken t).taskTurn t = (next.conclude t (.failed (.connection reason)), false) := by
  let flushed : Link := { s.woken t with writer := s.writer.flush.1 }
  have hflushed : s.Remains t label s.phase flushed := ⟨rfl, (remains_woken htask).label, rfl, rfl⟩
  refine ⟨_, hflushed.leaveLine.fail.giveUp purpose, ?_⟩
  rw [taskTurn_sending htask]
  cases step with
  | inLine frame handler => cases hflushes
  | holding frame =>
    have hfull : ¬ (s.woken t).writer.outbox.length < Writer.boundary :=
      Nat.not_lt.mpr (of_decide_eq_true hflushes)
    dsimp only [sendTurn]
    rw [if_neg hfull, show (s.woken t).writer.flush.2 = .failed reason from hfailed]
    rfl
  | flushing =>
    dsimp only [sendTurn]
    rw [show (s.woken t).writer.flush.2 = .failed reason from hfailed]
    rfl

/-- A call with a reason to end does so. -/
theorem EndsHandshake.concludes (h : s.EndsHandshake handed t stage result)
    (hknown : s.Handshakes handed) (htask : s.tasks[t]? = some ⟨label, stage, false⟩) :
    ∃ next, s.Remains t label (s.phase.after result) next ∧
      (s.woken t).taskTurn t = (next.conclude t result, false) := by
  have hstart := remains_woken htask
  have hmem : stage ∈ s.roster.stages := List.mem_of_getElem? (stage_of_task htask)
  have hleft (key : Nat) : s.Remains t label s.phase ((s.woken t).unregister (.reply key)) :=
    ⟨rfl, hstart.label, rfl, rfl⟩
  have hfails : ∀ key bound deadline, stage = .replying key bound .handshake deadline →
      result ≠ .ok →
        (s.woken t).taskTurn t =
          (((s.woken t).unregister (.reply key)).conclude t result, false) := by
    rintro key bound deadline rfl hne
    exact h.taskTurn_of_fails hknown htask hne
  cases h with
  | @unbounded application url reason hbound =>
    refine ⟨_, hstart, ?_⟩
    rw [taskTurn_called htask]
    dsimp only [beginCall]
    rw [show (s.woken t).config.handshakeTimeout = .error reason from hbound]
    rfl
  | @unwritable application url bound reason hbound hframe =>
    refine ⟨_, hstart, ?_⟩
    rw [taskTurn_handshake htask hbound]
    unfold beginRequest
    rw [hframe, ← Message.ofProtocol_of_connectRequest hframe]
  | tooLarge hbound hframe hsize => exact taskTurn_of_tooLarge htask hbound hframe hsize
  | refused hwriter hclosed => exact taskTurn_of_refused htask hwriter hclosed
  | unwritten hflushes hfailed => exact taskTurn_of_unwritten htask hflushes hfailed
  | @late key => exact ⟨_, hleft key, hfails _ _ _ rfl nofun⟩
  | @lost key => exact ⟨_, hleft key, hfails _ _ _ rfl nofun⟩
  | @malformed key => exact ⟨_, hleft key, hfails _ _ _ rfl nofun⟩
  | @rejected key => exact ⟨_, hleft key, hfails _ _ _ rfl nofun⟩
  | @accepted key bound deadline payload response hhanded hdecode haccepts =>
    have houtcome := hknown.outcome_of_handed hmem rfl hhanded
    rw [MessageKind.outcomeOf, hdecode] at houtcome
    refine ⟨_, (hleft key).opened, ?_⟩
    rw [taskTurn_replying htask, replyTurn_of_ok (s := s.woken t) houtcome,
      concludeHandshake_of_accepts _ _
        (show Message.accepts (.connectResponse response) from haccepts)]

/-! ### What a turn leaves behind -/

/-- A link that is no longer used is closed if it was given up, and keeps its phase otherwise. -/
theorem phase_releaseUnused (s : Link) :
    s.releaseUnused.phase = s.phase ∨ s.isHeld = false ∧ s.releaseUnused.phase = .closed := by
  cases hheld : s.isHeld with
  | true =>
    rw [releaseUnused_of_isHeld s hheld]
    exact .inl rfl
  | false =>
    have hpasses : s.ledger.Passes false s.releaseUnused.ledger := s.passes_releaseUnused
    rcases hpasses.phase with hsame | hclosed | ⟨hnever, -, -⟩
    · exact .inl hsame
    · exact .inr ⟨rfl, hclosed⟩
    · cases hnever

/-- After its turn a call may be woken again, and a link that nobody uses is released. -/
theorem exists_released {after : Link} {goesOn : Bool}
    (hturn : (s.woken t).taskTurn t = (after, goesOn)) :
    ∃ ready, s.act (.turn (.task t)) = ({ after with ready := ready } : Link).releaseUnused := by
  dsimp only [act, turnOf]
  rw [show ({ s with ready := s.ready.erase (.task t) } : Link).taskTurn t = (after, goesOn)
    from hturn]
  cases goesOn with
  | true => exact ⟨_, rfl⟩
  | false => exact ⟨after.ready, rfl⟩

/-- A call has ended with a result, and nobody waits for its reply any more. The result decides the
phase, except that a link that was given up is closed as soon as no call uses it. -/
structure Concludes (s : Link) (t : Nat) (label : Option Nat) (stage : Stage) (result : LinkResult)
    (next : Link) : Prop where
  /-- The call has reported its result. -/
  finished : next.finished = s.finished ++ label.toList.map fun label => (label, result)
  /-- It has ended. -/
  ended : next.roster.stages[t]? = some .ended
  /-- The result decides the phase, or the link was given up and is closed. -/
  phase : next.phase = s.phase.after result ∨ s.isHeld = false ∧ next.phase = .closed
  /-- Nobody waits for its reply. -/
  pending : ∀ key, stage.asks? = some key → .reply key ∉ next.pending

/-- Who has ended leaves no handler waiting. -/
theorem notMem_pending_of_ended (hclaimed : (s.act (.turn (.task t))).roster.Claimed)
    (honce : s.roster.AskedOnce) (hstage : s.roster.stages[t]? = some stage)
    (hasks : stage.asks? = some key)
    (hended : (s.act (.turn (.task t))).roster.stages[t]? = some .ended) :
    .reply key ∉ (s.act (.turn (.task t))).pending := by
  intro hmem
  obtain ⟨claimer, hclaimer, hclaims⟩ := hclaimed key hmem
  obtain ⟨u, hu⟩ := List.mem_iff_getElem?.mp hclaimer
  have hother : u ≠ t := by
    rintro rfl
    cases Option.some.inj (hu.symm.trans hended)
    cases hclaims
  cases comes_act s hu with
  | begun hnone hbegins =>
    obtain ⟨period, rfl⟩ := hbegins
    cases hclaims
  | kept hkept =>
    exact hother (eq_of_asks honce hstage hasks hkept (Stage.asks_of_claims hclaims))
  | stepped haction htask hcourse =>
    cases haction
    exact hother rfl
  | dropped hdropped =>
    subst hdropped
    cases hclaims

/-- A handshake with a reason to end has ended after its turn, as the reason says. -/
theorem EndsHandshake.turn (h : s.EndsHandshake handed t stage result)
    (hknown : s.Handshakes handed) (honce : s.roster.AskedOnce)
    (hclaimed : (s.act (.turn (.task t))).roster.Claimed)
    (htask : s.tasks[t]? = some ⟨label, stage, false⟩) :
    s.Concludes t label stage result (s.act (.turn (.task t))) := by
  obtain ⟨next, hnext, hturn⟩ := h.concludes hknown htask
  have hopen : result.isClosing = false := by cases h <;> rfl
  have hconcluded := next.spares_conclude t result
  have hphase : (next.conclude t result).phase = s.phase.after result :=
    (congrArg Ledger.phase (next.ledger_conclude t hopen)).trans hnext.phase
  have hended : (s.act (.turn (.task t))).roster.stages[t]? = some .ended := by
    obtain ⟨ht, -⟩ := List.getElem?_eq_some_iff.mp hnext.label
    obtain ⟨ready, hreleased⟩ := exists_released hturn
    rw [hreleased, stages_releaseUnused]
    change (next.conclude t result).roster.stages[t]? = _
    rw [stages_conclude, List.getElem?_set_self (by simpa [roster] using ht)]
  have hstage : s.roster.stages[t]? = some stage := stage_of_task htask
  constructor
  · rw [(sameOutcome_turn hturn).finished, finished_conclude hnext.label, hnext.finished]
  · exact hended
  · obtain ⟨ready, hreleased⟩ := exists_released hturn
    rw [hreleased, ← hphase]
    rcases phase_releaseUnused ({ next.conclude t result with ready := ready } : Link) with
      hsame | ⟨hheld, hclosed⟩
    · exact .inl hsame
    · exact .inr ⟨(hconcluded.isHeld.trans hnext.held).symm.trans hheld, hclosed⟩
  · exact fun key hasks => notMem_pending_of_ended hclaimed honce hstage hasks hended

/-- Leaving the line takes no time. -/
theorem leaveLine_now (s : Link) (t : Nat) : (s.leaveLine t).now = s.now :=
  (s.wakes_leaveLine t).now

/-- A call has gone on to a stage, or stands there still, and nobody has ended. -/
structure GoesTo (s : Link) (t : Nat) (new : Stage) (next : Link) : Prop where
  /-- The call stands at the stage. -/
  stage : next.roster.stages[t]? = some new
  /-- No call has ended. -/
  finished : next.finished = s.finished
  /-- The phase is the same. -/
  phase : next.phase = s.phase

/-- A call that is put at another stage goes to it. -/
theorem goesTo_setStage (hstage : s.roster.stages[t]? = some stage) (next : Link)
    (hstages : next.roster.stages = s.roster.stages) (hfinished : next.finished = s.finished)
    (hphase : next.phase = s.phase) (new : Stage) : s.GoesTo t new (next.setStage t new) where
  stage := by
    rw [roster_setStage, Roster.move, hstages]
    exact Lists.getElem?_set_of_some hstage new
  finished := hfinished
  phase := hphase

/-- A call that asks to connect goes on to do so. If its request is out now, it waits for the reply
from now on. -/
def Lingers (s : Link) (t : Nat) (stage : Stage) (next : Link) : Prop :=
  ∃ new, s.GoesTo t new next ∧ new.isHandshake ∧
    ∀ key bound deadline, new = .replying key bound .handshake deadline →
      stage = new ∨ deadline = Clock.after s.now bound

/-- A call whose next stage is part of writing its request goes on. -/
theorem GoesTo.lingers_sending {step : SendStep} {next : Link}
    (h : s.GoesTo t (.sending (.reply key bound .handshake) step) next) :
    s.Lingers t stage next :=
  ⟨_, h, rfl, fun _ _ _ hsame => by cases hsame⟩

/-- A call that can neither write nor fail stays where it writes its request, whatever the writer
has sent meanwhile. -/
theorem lingers_woken {step : SendStep}
    (hstage : s.roster.stages[t]? = some (.sending (.reply key bound .handshake) step))
    (writer : Writer) : s.Lingers t stage { s.woken t with writer := writer } :=
  GoesTo.lingers_sending ⟨hstage, rfl, rfl⟩

/-- In line for the writer it stays until it has it. Then it is refused on a closed connection, and
registers its handler on any other. -/
theorem inLine_cases {frame : Frame} {handler : Option Handler}
    (hstage : s.roster.stages[t]? =
      some (.sending (.reply key bound .handshake) (.inLine frame handler))) :
    (∃ result, s.EndsHandshake handed t
        (.sending (.reply key bound .handshake) (.inLine frame handler)) result) ∨
      s.Lingers t (.sending (.reply key bound .handshake) (.inLine frame handler))
        ((s.woken t).sendTurn t (.reply key bound .handshake) (.inLine frame handler)).1 := by
  dsimp only [sendTurn, enter]
  rw [show (s.woken t).hasWriter t = s.hasWriter t from rfl,
    show (s.woken t).isClosed = s.isClosed from rfl]
  cases hwriter : s.hasWriter t with
  | false => exact .inr (lingers_woken hstage s.writer)
  | true =>
    cases hclosed : s.isClosed with
    | true => exact .inl ⟨_, .refused hwriter hclosed⟩
    | false =>
      have hregistered : ∃ pending, handler.elim (s.woken t) (s.woken t).register =
          { s.woken t with pending := pending } := by
        cases handler with
        | none => exact ⟨s.pending, rfl⟩
        | some handler => exact ⟨_, if_neg (by simpa [woken, isClosed] using hclosed)⟩
      obtain ⟨pending, hpending⟩ := hregistered
      exact .inr (goesTo_setStage hstage _ (by rw [hpending]; rfl) (by rw [hpending]; rfl)
        (by rw [hpending]; rfl) (.sending _ (.holding frame))).lingers_sending

/-- With room in the buffer it puts its request there, which is not too large since the call began.
Without, it waits for the stream to take more, and ends if that fails. -/
theorem Handshakes.holding_cases (h : s.Handshakes handed) {frame : Frame}
    (hstage : s.roster.stages[t]? =
      some (.sending (.reply key bound .handshake) (.holding frame))) :
    (∃ result, s.EndsHandshake handed t
        (.sending (.reply key bound .handshake) (.holding frame)) result) ∨
      s.Lingers t (.sending (.reply key bound .handshake) (.holding frame))
        ((s.woken t).sendTurn t (.reply key bound .handshake) (.holding frame)).1 := by
  dsimp only [sendTurn]
  rw [show (s.woken t).writer = s.writer from rfl]
  by_cases hroom : s.writer.outbox.length < Writer.boundary
  · have hsize := h.fit _ (List.mem_of_getElem? hstage) frame rfl
    have hencoded : (s.woken t).codec.encode frame = .ok frame.envelope := if_pos hsize
    rw [if_pos hroom, hencoded]
    exact .inr (goesTo_setStage hstage { s.woken t with writer := s.writer.put frame.envelope } rfl
      rfl rfl (.sending _ .flushing)).lingers_sending
  · have hflushes : s.flushesAt (.holding frame) := decide_eq_true (Nat.le_of_not_lt hroom)
    rw [if_neg hroom]
    cases hresult : s.writer.flush.2 with
    | done => exact .inr (lingers_woken hstage _)
    | stalled => exact .inr (lingers_woken hstage _)
    | failed reason => exact .inl ⟨_, .unwritten hflushes hresult⟩

/-- Once the stream has taken its request it waits for the reply, with its whole time left. -/
theorem flushing_cases (hstage : s.roster.stages[t]? =
      some (.sending (.reply key bound .handshake) .flushing)) :
    (∃ result, s.EndsHandshake handed t (.sending (.reply key bound .handshake) .flushing)
        result) ∨
      s.Lingers t (.sending (.reply key bound .handshake) .flushing)
        ((s.woken t).sendTurn t (.reply key bound .handshake) .flushing).1 := by
  let flushed : Link := { s.woken t with writer := s.writer.flush.1 }
  dsimp only [sendTurn]
  rw [show (s.woken t).writer = s.writer from rfl]
  cases hresult : s.writer.flush.2 with
  | done =>
    have hstages : (flushed.leaveLine t).roster.stages = s.roster.stages := by
      rw [roster_leaveLine]
      rfl
    refine .inr ⟨_, goesTo_setStage hstage _ hstages (flushed.sameOutcome_leaveLine t).finished
      (congrArg Ledger.phase (flushed.ledger_leaveLine t)) _, rfl, ?_⟩
    rintro key bound deadline hnew
    cases hnew
    exact .inr (congrArg (Clock.after · bound) (flushed.leaveLine_now t))
  | stalled => exact .inr (lingers_woken hstage _)
  | failed reason => exact .inl ⟨_, .unwritten rfl hresult⟩

/-- A call that writes its request has a reason to end, or goes on. -/
theorem Handshakes.sending_cases (h : s.Handshakes handed) {step : SendStep}
    (hstage : s.roster.stages[t]? = some (.sending (.reply key bound .handshake) step)) :
    (∃ result, s.EndsHandshake handed t (.sending (.reply key bound .handshake) step) result) ∨
      s.Lingers t (.sending (.reply key bound .handshake) step)
        ((s.woken t).sendTurn t (.reply key bound .handshake) step).1 := by
  cases step with
  | inLine frame handler => exact inLine_cases hstage
  | holding frame => exact h.holding_cases hstage
  | flushing => exact flushing_cases hstage

/-- A call that waits for the reply has a reason to end, or goes on. Then none was handed over so
far and its time is not over. -/
theorem Handshakes.replying_cases (h : s.Handshakes handed)
    (hstage : s.roster.stages[t]? = some (.replying key bound .handshake deadline)) :
    (∃ result, s.EndsHandshake handed t (.replying key bound .handshake deadline) result) ∨
      handed key = [] ∧ Clock.isDue s.now deadline = false ∧
        s.Lingers t (.replying key bound .handshake deadline)
          ((s.woken t).replyTurn t key bound .handshake deadline) := by
  have hmem := List.mem_of_getElem? hstage
  rcases h.outcome_cases hmem rfl with
    ⟨hnone, houtcome⟩ | ⟨hnone, hlost, hclosed⟩ | ⟨payload, hhanded, houtcome⟩
  · cases hdue : Clock.isDue s.now deadline with
    | true =>
      exact .inl ⟨_, .late (h.stages _ hmem key bound rfl).2 hnone houtcome hdue⟩
    | false =>
      refine .inr ⟨hnone, rfl, ?_⟩
      rw [replyTurn_of_none (s := s.woken t) houtcome,
        if_neg (by simpa [woken] using hdue)]
      exact ⟨_, ⟨hstage, rfl, rfl⟩, rfl, fun _ _ _ _ => .inl rfl⟩
  · exact .inl ⟨_, .lost hnone hlost hclosed⟩
  · left
    cases hdecode : Message.decode .connectResponse payload with
    | error reason => exact ⟨_, .malformed hhanded hdecode⟩
    | ok message =>
      obtain ⟨response, rfl⟩ := Message.exists_connectResponse hdecode
      cases response with
      | accepted => exact ⟨_, .accepted hhanded hdecode rfl⟩
      | rejected error =>
        by_cases hcode : error.code = 0
        · exact ⟨_, .accepted hhanded hdecode (beq_iff_eq.mpr hcode)⟩
        · exact ⟨_, .rejected hhanded hdecode hcode⟩

/-- A call that asks to connect has a reason to end, or goes on. If it waits for the reply and goes
on, none was handed over so far and its time is not over. -/
theorem Handshakes.turn_cases (h : s.Handshakes handed)
    (htask : s.tasks[t]? = some ⟨label, stage, false⟩) (hhandshake : stage.isHandshake) :
    (∃ result, s.EndsHandshake handed t stage result) ∨
      s.Lingers t stage ((s.woken t).taskTurn t).1 ∧
        ∀ key bound deadline, stage = .replying key bound .handshake deadline →
          handed key = [] ∧ Clock.isDue s.now deadline = false := by
  have hstage : s.roster.stages[t]? = some stage := stage_of_task htask
  cases stage with
  | called call =>
    cases call with
    | handshake application url =>
      cases hbound : s.config.handshakeTimeout with
      | error reason => exact .inl ⟨_, .unbounded hbound⟩
      | ok bound =>
        cases hframe : (Message.connectRequest ⟨url, application⟩).toFrame with
        | error reason => exact .inl ⟨_, .unwritable hbound hframe⟩
        | ok frame =>
          by_cases hsize : s.codec.limit < frame.payload.length
          · exact .inl ⟨_, .tooLarge hbound hframe hsize⟩
          · refine .inr ⟨?_, fun _ _ _ hsame => by cases hsame⟩
            rw [taskTurn_handshake htask hbound,
              (s.woken t).beginRequest_of_le t _ bound .handshake hframe (Nat.le_of_not_lt hsize)]
            exact ⟨_, goesTo_setStage hstage (((s.woken t).addReply _).joinLine t) rfl rfl rfl _,
              rfl, fun _ _ _ hsame => by cases hsame⟩
    | _ => cases hhandshake
  | sending purpose step =>
    cases purpose with
    | reply key bound use =>
      cases use with
      | request => cases hhandshake
      | handshake =>
        rw [taskTurn_sending htask]
        exact (h.sending_cases hstage).imp id fun hlingers =>
          ⟨hlingers, fun _ _ _ hsame => by cases hsame⟩
    | _ => cases hhandshake
  | replying key bound use deadline =>
    cases use with
    | request => cases hhandshake
    | handshake =>
      rw [taskTurn_replying htask]
      rcases h.replying_cases hstage with hends | ⟨hnone, hearly, hlingers⟩
      · exact .inl hends
      · refine .inr ⟨hlingers, ?_⟩
        rintro _ _ _ hsame
        cases hsame
        exact ⟨hnone, hearly⟩
  | _ => cases hhandshake

/-- The link is in use by the call that goes on. -/
theorem Lingers.act (h : s.Lingers t stage ((s.woken t).taskTurn t).1) :
    s.Lingers t stage (s.act (.turn (.task t))) := by
  obtain ⟨after, goesOn, hturn⟩ : ∃ after goesOn, (s.woken t).taskTurn t = (after, goesOn) :=
    ⟨_, _, rfl⟩
  rw [hturn] at h
  obtain ⟨new, hgoes, hhandshake, hdeadline⟩ := h
  obtain ⟨ready, hreleased⟩ := exists_released hturn
  have huses := Stage.usesWriter_of_isHandshake hhandshake
  have hinUse : ({ after with ready := ready } : Link).isInUse := by
    refine (tasks_any _ fun stage => stage.usesWriter && !stage.isPinging).trans ?_
    refine List.any_eq_true.mpr ⟨new, List.mem_of_getElem? hgoes.stage, ?_⟩
    rw [huses.1, huses.2]
    rfl
  rw [hreleased, releaseUnused_of_isInUse hinUse]
  exact ⟨new, ⟨hgoes.stage, hgoes.finished, hgoes.phase⟩, hhandshake, hdeadline⟩

end Link

end BeeProtocol
