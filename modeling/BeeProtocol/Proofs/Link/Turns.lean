import BeeProtocol.Proofs.Link.Custody
import BeeProtocol.Proofs.Link.Moves

/-!
# The calls' turns in moves

Whatever a call does in a turn, and what is done when it is ended, is a few moves of the roster.
-/

namespace BeeProtocol

namespace Channel

/-- A channel that only loses rows at the front hands them out. -/
theorem givesOut_of_entry {c c' : Channel} {rows : List Row} (hentry : c'.entry = c.entry)
    (hbound : c'.bound = c.bound) (hrows : rows ++ c'.rows = c.rows) : c.GivesOut rows c' :=
  ⟨congrArg Prod.fst hentry, hbound, congrArg Prod.snd hentry, hrows⟩

end Channel

namespace Link

/-! ### What is remembered -/

/-- What is remembered of a turn of a call that is not ended in it. -/
def callEvents (s : Link) (t : Nat) : Stage → List Event
  | .sending _ (.inLine _ (some handler)) =>
    if s.hasWriter t && !s.isClosed then [.registered t handler] else []
  | .sending _ (.holding frame) =>
    if s.writer.outbox.length < Writer.boundary then
      match s.codec.encode frame with
      | .ok _ => [.encoded t]
      | .error _ => []
    else []
  | .pulling key call =>
    match s.channels[key]? with
    | some c => [.gained key (call.gained s.now c)]
    | none => []
  | _ => []

variable (s : Link) (t : Nat) {stage : Stage}

/-! ### The line for the writer -/

/-- A line that stays keeps the writer. -/
theorem keepsWriter_same : s.roster.KeepsWriter t s.roster.line := fun _ _ hhead => hhead

/-- Who joins the line comes behind the writer. -/
theorem keepsWriter_join : s.roster.KeepsWriter t (s.roster.line ++ [t]) := by
  intro u _ hhead
  rw [List.head?_append, hhead]
  rfl

/-- Who leaves the line takes nobody else's place. -/
theorem keepsWriter_leave : s.roster.KeepsWriter t (s.roster.line.filter (· != t)) := by
  intro u hother hhead
  obtain ⟨rest, hline⟩ := List.head?_eq_some_iff.mp hhead
  rw [hline, List.filter_cons_of_pos (by simpa using hother)]
  rfl

/-! ### Ends of calls -/

/-- A call that neither carries a handler nor has registered one for itself just ends. -/
theorem end_moves (hstage : s.roster.stages[t]? = some stage) (hcarries : stage.carries? = none)
    (hasks : stage.asks? = none) (response : Option Nat) :
    s.roster.Moves [] ((s.roster.dropResponse response).move t .ended) := by
  have hquit := Roster.Move.quit (r := s.roster) response hstage (s.keepsWriter_same t)
  have hrelease : ({ s.roster with line := s.roster.line } : Roster).release stage = s.roster := by
    simp only [Roster.release, hcarries, hasks]
    rfl
  rw [Roster.quit, hrelease] at hquit
  exact hquit.moves

/-- A call that ends with nothing in its hands quits. -/
theorem conclude_moves (result : LinkResult) (hstage : s.roster.stages[t]? = some stage)
    (hcarries : stage.carries? = none) (hasks : stage.asks? = none) :
    s.roster.Moves [] (s.conclude t result).roster := by
  rw [roster_conclude]
  exact s.end_moves t hstage hcarries hasks none

/-- What a call that writes has gives up for its purpose is what it asks for and its response. -/
theorem release_sending (r : Roster) (purpose : Purpose) (step : SendStep) :
    ∃ response, ((r.release (.sending purpose step)).dropResponse response) =
      (match step with
        | .inLine _ (some handler) => r.letGo handler
        | _ => r).giveUp purpose := by
  have hcases : ∀ r : Roster, ∃ response,
      ((Stage.sending purpose step).asks?.elim r
        fun key => r.unregister (.reply key)).dropResponse response = r.giveUp purpose := by
    intro r
    cases purpose with
    | plain => exact ⟨none, rfl⟩
    | reply key bound use => exact ⟨none, rfl⟩
    | statement key => exact ⟨some key, rfl⟩
    | keepAlive period next => exact ⟨none, rfl⟩
  cases step with
  | inLine frame handler =>
    cases handler with
    | none => exact hcases r
    | some handler => exact hcases (r.letGo handler)
  | holding frame => exact hcases r
  | flushing => exact hcases r

/-- A call that writes gives up what it writes for and ends. -/
theorem quit_moves {r : Roster} {purpose : Purpose} {step : SendStep} {line : List Nat}
    (hstage : r.stages[t]? = some (.sending purpose step)) (hline : r.KeepsWriter t line) :
    r.Moves [] (((match step with
      | .inLine _ (some handler) => ({ r with line := line } : Roster).letGo handler
      | _ => { r with line := line }).giveUp purpose).move t .ended) := by
  obtain ⟨response, hrelease⟩ := release_sending { r with line := line } purpose step
  rw [← hrelease]
  exact (Roster.Move.quit response hstage hline).moves

/-! ### Closing -/

/-- A link that is closed tells its reader to end. -/
theorem close_moves (r : Roster) : r.Moves [] r.shut.stop := by
  obtain ⟨isAborted, hstop, hstops⟩ := r.shut.stop_eq
  rw [r.shut_reading] at hstops
  rw [hstop]
  have hclose := Roster.Move.close r.reading isAborted rfl hstops
  rw [← r.shut_reading] at hclose
  exact hclose.moves

/-- A call whose frame cannot be written closes the link. -/
theorem failWrite_moves (reason : ProtocolError) {purpose : Purpose} {step : SendStep}
    (hstage : s.roster.stages[t]? = some (.sending purpose step))
    (hstep : ∀ frame handler, step ≠ .inLine frame handler) :
    s.roster.Moves [] (s.failWrite t purpose reason).roster := by
  obtain ⟨isAborted, hstop, -⟩ := s.roster.shut.stop_eq
  have hstages : s.roster.shut.stop.stages = s.roster.stages := by rw [hstop, Roster.shut_stages]
  have hlines : s.roster.shut.stop.line = s.roster.line := by rw [hstop, Roster.shut_line_eq]
  have hline : s.roster.shut.stop.KeepsWriter t (s.roster.line.filter (· != t)) := by
    intro u hother hhead
    rw [hlines] at hhead
    exact s.keepsWriter_leave t u hother hhead
  have hleave : (s.roster.leave t).shut.stop =
      { s.roster.shut.stop with line := s.roster.line.filter (· != t) } := by
    rw [Roster.leave, Roster.shut_line, Roster.stop_line]
  have hquit := quit_moves t (hstages.symm ▸ hstage) hline
  rw [roster_failWrite, hleave]
  have hmoves := (close_moves s.roster).append hquit
  cases step with
  | inLine frame handler => exact absurd rfl (hstep frame handler)
  | holding frame => exact hmoves
  | flushing => exact hmoves

/-! ### Writing a frame -/

/-- A call starts to write a frame for nobody's sake but its own. -/
theorem beginSend_moves {purpose : Purpose} (frame : Frame) {handler : Option Handler}
    (hstage : s.roster.stages[t]? = some stage) (hcarries : stage.carries? = handler)
    (hasks : stage.asks? = none) (hnew : stage.GoesOnTo (.sending purpose (.inLine frame handler)))
    (hpurpose : ∀ r : Roster, r.giveUp purpose = r) :
    s.roster.Moves [] (s.beginSend t purpose frame handler).1.roster := by
  rcases s.roster_beginSend t purpose frame handler with hroster | hroster
  · rw [hroster]
    exact (Roster.Move.goOn _ hstage hnew (s.keepsWriter_join t)).moves
  · have hquit := Roster.Move.quit (r := s.roster) none hstage (s.keepsWriter_same t)
    have hrelease : ({ s.roster with line := s.roster.line } : Roster).release stage =
        handler.elim s.roster s.roster.letGo := by
      simp only [Roster.release, hcarries, hasks]
      rfl
    rw [Roster.quit, hrelease] at hquit
    rw [hroster, hpurpose]
    exact hquit.moves

/-- A call that has just joined the line with a handler can as well let go of it and end. -/
theorem refuse_moves {r : Roster} (hkey : t < r.stages.length) (purpose : Purpose) (frame : Frame)
    (handler : Handler) :
    (r.move t (.sending purpose (.inLine frame (some handler)))).Moves []
      (((r.letGo handler).giveUp purpose).move t .ended) := by
  let joined := r.move t (.sending purpose (.inLine frame (some handler)))
  have hquit := quit_moves t (r := joined) (List.getElem?_set_self hkey) (fun _ _ hhead => hhead)
  have hletGo (new : Stage) : (r.move t new).letGo handler = (r.letGo handler).move t new := by
    cases handler <;> rfl
  have hgiveUp (r : Roster) (new : Stage) :
      ((r.move t new).giveUp purpose).move t .ended = (r.giveUp purpose).move t .ended := by
    unfold Roster.move
    cases purpose <;> simp [Roster.giveUp, Roster.change, Roster.unregister]
  change Roster.Moves _ []
    ((((r.move t _).letGo handler).giveUp purpose).move t .ended) at hquit
  rwa [hletGo, hgiveUp] at hquit

/-- A call that asks for a reply opens it, or ends. -/
theorem beginRequest_moves (message : Message) (kind : MessageKind) (bound : Duration)
    (use : ReplyUse) (hstage : s.roster.stages[t]? = some stage) (hplain : stage.IsPlain)
    (hentered : stage.hasEntered = false) :
    s.roster.Moves [] (s.beginRequest t message kind bound use).1.roster := by
  unfold beginRequest
  split
  · exact s.conclude_moves t _ hstage hplain.carries hplain.asks
  · rename_i frame _
    rcases (s.addReply kind).roster_beginSend t (.reply s.replies.length bound use) frame
      (some (.reply s.replies.length)) with hroster | hroster
    · rw [hroster]
      exact (Roster.Move.openReply kind frame bound use hstage hplain hentered
        (s.keepsWriter_join t)).moves
    · rw [hroster]
      have hopen := Roster.Move.openReply kind frame bound use hstage hplain hentered
        (s.keepsWriter_same t)
      have hkey : t < (s.addReply kind).roster.stages.length :=
        (List.getElem?_eq_some_iff.mp hstage).1
      exact hopen.moves.append (refuse_moves t hkey _ frame _)

/-- A call that submits a script opens a statement, or ends. -/
theorem beginSubmit_moves (id : UInt16) (script : String) (seconds : UInt32)
    (hstage : s.roster.stages[t]? = some stage) (hplain : stage.IsPlain)
    (hentered : stage.hasEntered = false) :
    s.roster.Moves [] (s.beginSubmit t id script seconds).1.roster := by
  unfold beginSubmit
  dsimp only
  split
  · exact s.conclude_moves t _ hstage hplain.carries hplain.asks
  · rename_i frame _
    generalize hbound : (if seconds = 0 then s.config.statementTimeout
      else .ofSeconds seconds.toUInt64) = bound
    rcases (s.addChannel (.fresh id.toUInt32 s.config.rowCapacity bound)).roster_beginSend t
      (.statement s.channels.length) frame (some (.statement s.channels.length))
        with hroster | hroster
    · rw [hroster]
      exact (Roster.Move.openStatement id.toUInt32 _ bound frame hstage hplain hentered
        (s.keepsWriter_join t)).moves
    · rw [hroster]
      have hopen := Roster.Move.openStatement id.toUInt32 s.config.rowCapacity bound frame hstage
        hplain hentered (s.keepsWriter_same t)
      have hkey : t < (s.addChannel
          (.fresh id.toUInt32 s.config.rowCapacity bound)).roster.stages.length :=
        (List.getElem?_eq_some_iff.mp hstage).1
      exact hopen.moves.append (refuse_moves t hkey _ frame _)

/-- A call that gets the writer registers its handler, unless the link is closed. -/
theorem enter_moves {purpose : Purpose} {frame : Frame} {handler : Option Handler}
    (hstage : s.roster.stages[t]? = some (.sending purpose (.inLine frame handler)))
    (hwriter : s.hasWriter t) :
    s.roster.Moves (s.callEvents t (.sending purpose (.inLine frame handler)))
      (s.enter t purpose frame handler).1.roster := by
  have hhead : s.roster.line.head? = some t := by simpa [hasWriter, roster] using hwriter
  unfold enter
  dsimp only
  cases hclosed : s.isClosed with
  | true =>
    rw [if_pos rfl, roster_failSend, roster_leaveLine]
    have hquit := quit_moves t hstage (s.keepsWriter_leave t)
    cases handler with
    | none => exact hquit
    | some handler =>
      have hnone : s.callEvents t (.sending purpose (.inLine frame (some handler))) = [] := by
        simp [callEvents, hclosed]
      rw [hnone, Option.elim_some, s.register_of_isClosed hclosed, roster_letGo]
      have hline : ({ s.roster with line := s.roster.line.filter (· != t) } : Roster).letGo
          handler = (s.roster.letGo handler).leave t := by
        cases handler <;> rfl
      rw [← hline]
      exact hquit
  | false =>
    rw [if_neg (by simp), roster_setStage]
    cases handler with
    | none => exact (Roster.Move.enter hstage hhead).moves
    | some handler =>
      have hone : s.callEvents t (.sending purpose (.inLine frame (some handler))) =
          [.registered t handler] := by
        simp [callEvents, hclosed, hwriter]
      rw [hone, Option.elim_some, s.roster_register hclosed]
      exact (Roster.Move.register hstage hhead hclosed).moves

/-- A call whose frame is out goes on to wait for what it has asked, or ends. -/
theorem afterSend_moves {purpose : Purpose}
    (hstage : s.roster.stages[t]? = some (.sending purpose .flushing)) :
    s.roster.Moves [] ((s.leaveLine t).afterSend t purpose).1.roster := by
  have hmove (new : Stage) (hgoesOn : (Stage.sending purpose .flushing).GoesOnTo new) :
      s.roster.Moves [] ((s.roster.leave t).move t new) :=
    (Roster.Move.goOn new hstage hgoesOn (s.keepsWriter_leave t)).moves
  cases purpose with
  | plain =>
    rw [afterSend, roster_conclude, roster_leaveLine]
    exact hmove _ ⟨rfl, rfl, rfl, rfl, trivial, fun _ => trivial, fun _ => rfl⟩
  | reply key bound use =>
    rw [afterSend, roster_setStage, roster_leaveLine]
    exact hmove _ ⟨rfl, rfl, rfl, rfl, trivial, fun _ => trivial, fun _ => rfl⟩
  | statement key =>
    rw [afterSend, roster_conclude, roster_leaveLine]
    exact hmove _ ⟨rfl, rfl, rfl, rfl, trivial, fun _ => trivial, fun _ => rfl⟩
  | keepAlive period next =>
    rw [afterSend, roster_setStage, roster_leaveLine]
    refine hmove _ ⟨rfl, rfl, rfl, rfl, trivial, fun _ => trivial, fun h => ?_⟩
    cases h

/-- A call that writes takes its turn. -/
theorem sendTurn_moves {purpose : Purpose} {step : SendStep}
    (hstage : s.roster.stages[t]? = some (.sending purpose step)) :
    s.roster.Moves (s.callEvents t (.sending purpose step))
      (s.sendTurn t purpose step).1.roster := by
  have hflushed (hstep : ∀ frame handler, step ≠ .inLine frame handler) (reason : ProtocolError) :=
    failWrite_moves { s with writer := s.writer.flush.1 } t reason hstage hstep
  cases step with
  | inLine frame handler =>
    dsimp only [sendTurn]
    split
    · rename_i hwriter
      exact s.enter_moves t hstage hwriter
    · rename_i hwriter
      have hnone : s.callEvents t (.sending purpose (.inLine frame handler)) = [] := by
        cases handler <;> simp [callEvents, hwriter]
      rw [hnone]
      exact .nil s.roster
  | holding frame =>
    dsimp only [sendTurn, callEvents]
    split
    · cases s.codec.encode frame with
      | ok bytes =>
        dsimp only
        rw [roster_setStage]
        exact (Roster.Move.encode hstage).moves
      | error reason => exact s.failWrite_moves t reason hstage (by simp)
    · split
      · exact .nil s.roster
      · exact .nil s.roster
      · exact hflushed (by simp) _
  | flushing =>
    dsimp only [sendTurn, callEvents]
    split
    · exact afterSend_moves { s with writer := s.writer.flush.1 } t hstage
    · exact .nil s.roster
    · exact hflushed (by simp) _

/-- A task that pauses begins to write its ping, or pauses on. -/
theorem pauseTurn_moves (period : Duration) (due : Nat)
    (hstage : s.roster.stages[t]? = some (.pausing period due)) :
    s.roster.Moves [] (s.pauseTurn t period due).1.roster := by
  unfold pauseTurn
  split
  · split
    · rw [roster_setStage]
      exact s.end_moves t hstage rfl rfl none
    · refine s.beginSend_moves t _ hstage rfl rfl ?_ fun _ => rfl
      exact ⟨rfl, rfl, rfl, rfl, rfl, fun _ => trivial, fun h => by cases h⟩
  · exact .nil s.roster

/-! ### Replies and responses -/

/-- A call that has its reply, or waits no longer, takes the handler off the queue. -/
theorem answered_moves {key : Nat} {bound : Duration} {use : ReplyUse} {deadline : Nat}
    (hstage : s.roster.stages[t]? = some (.replying key bound use deadline)) :
    s.roster.Moves [] ((s.roster.unregister (.reply key)).move t .ended) :=
  (Roster.Move.quit none hstage (s.keepsWriter_same t)).moves

/-- An accepted handshake may start to send pings. -/
theorem accepted_moves {key : Nat} {bound : Duration} {use : ReplyUse} {deadline : Nat}
    (hstage : s.roster.stages[t]? = some (.replying key bound use deadline)) :
    s.roster.Moves []
      ((s.unregister (.reply key)).markOpen.startKeepAlive.conclude t .ok).roster := by
  rw [roster_conclude]
  rcases (s.unregister (.reply key)).markOpen.roster_startKeepAlive with hsame | ⟨period, hadded⟩
  · rw [hsame, roster_markOpen]
    exact s.answered_moves t hstage
  · rw [hadded, roster_markOpen]
    have hplain : (Stage.called (.keepAlive period)).IsPlain := ⟨rfl, rfl, rfl, trivial, trivial⟩
    have hbegun := Roster.Move.begin (r := s.roster) _ hplain
    have hstage' : (s.roster.stages ++ [Stage.called (.keepAlive period)])[t]? =
        some (.replying key bound use deadline) := by
      rw [List.getElem?_append_left (List.getElem?_eq_some_iff.mp hstage).1, hstage]
    let begun : Roster :=
      { s.roster with stages := s.roster.stages ++ [Stage.called (.keepAlive period)] }
    have hquit := Roster.Move.quit (r := begun) none hstage' fun _ _ hhead => hhead
    exact hbegun.moves.append hquit.moves

/-- A call that waits for a reply quits when it has it or is late, and waits otherwise. -/
theorem replyTurn_moves (key : Nat) (bound : Duration) (use : ReplyUse) (deadline : Nat)
    (hstage : s.roster.stages[t]? = some (.replying key bound use deadline)) :
    s.roster.Moves [] (s.replyTurn t key bound use deadline).roster := by
  have hended (result : LinkResult) :
      s.roster.Moves [] ((s.unregister (.reply key)).conclude t result).roster := by
    rw [roster_conclude]
    exact s.answered_moves t hstage
  unfold replyTurn
  split
  · cases use with
    | request => exact hended _
    | handshake =>
      dsimp only [concludeHandshake]
      split
      · split
        · exact s.accepted_moves t hstage
        · exact hended _
      · exact s.accepted_moves t hstage
  · exact hended _
  · split
    · exact hended _
    · exact .nil s.roster

/-- A call that watches a reply quits when it has it or is late, and waits otherwise. -/
theorem watchTurn_moves (key : Nat) (bound : Option Duration) (deadline : Option Nat)
    (hstage : s.roster.stages[t]? = some (.watching key bound deadline)) :
    s.roster.Moves [] (s.watchTurn t key bound deadline).roster := by
  have hended (result : LinkResult) := s.conclude_moves t result hstage rfl rfl
  unfold watchTurn
  split
  · exact hended _
  · exact hended _
  · split
    · exact hended _
    · exact .nil s.roster
  · exact .nil s.roster

/-- A call on a response takes rows, and quits when it ends. -/
theorem pullTurn_moves (key : Nat) (call : PullCall)
    (hstage : s.roster.stages[t]? = some (.pulling key call)) :
    s.roster.Moves (s.callEvents t (.pulling key call)) (s.pullTurn t key call).1.roster := by
  dsimp only [pullTurn, callEvents]
  cases hchannel : s.channels[key]? with
  | none => exact .nil s.roster
  | some c =>
    dsimp only
    have hgives : c.GivesOut (call.gained s.now c) (call.turn s.now c).2 :=
      Channel.givesOut_of_entry (call.turn_entry s.now c) (call.turn_bound s.now c)
        (call.turn_rows s.now c)
    have hgiven := (Roster.Move.giveOut (r := s.roster) hchannel hgives).moves
    have hafter : (s.changeChannel key fun _ => (call.turn s.now c).2).roster =
        { s.roster with channels := s.roster.channels.set key (call.turn s.now c).2 } := by
      rw [roster_changeChannel]
      exact Roster.change_eq hchannel _
    have hstage' : (s.changeChannel key fun _ => (call.turn s.now c).2).roster.stages[t]? =
        some (.pulling key call) := by
      rw [hafter]
      exact hstage
    rw [← hafter] at hgiven
    rw [← List.append_nil [Event.gained key (call.gained s.now c)]]
    split
    · rename_i call' _
      rw [roster_setStage]
      have hgoesOn : (Stage.pulling key call).GoesOnTo (.pulling key call') :=
        ⟨rfl, rfl, rfl, rfl, trivial, fun _ => trivial, fun h => by cases h⟩
      exact hgiven.append (Roster.Move.goOn _ hstage' hgoesOn (keepsWriter_same _ t)).moves
    · exact hgiven.append (.nil _)
    · dsimp only [concludePull]
      split
      · rw [roster_changeChannel, roster_conclude]
        exact hgiven.append (end_moves _ t hstage' rfl rfl (some key))
      · exact hgiven.append (conclude_moves _ t _ hstage' rfl rfl)

/-! ### First turns -/

/-- A call to close the link closes it and joins the line. -/
theorem beginClose_moves (hstage : s.roster.stages[t]? = some (.called .close)) :
    s.roster.Moves [] ((s.stopKeepAlive.fail.joinLine t).setStage t .closing).roster := by
  have hclosed := close_moves s.roster
  obtain ⟨isAborted, hstop, -⟩ := s.roster.shut.stop_eq
  have hstage' : s.roster.shut.stop.stages[t]? = some (.called .close) := by
    rw [hstop, Roster.shut_stages]
    exact hstage
  have hroster : s.stopKeepAlive.fail.roster = s.roster.shut.stop := by
    rw [roster_fail, roster_stopKeepAlive]
  have hjoin := keepsWriter_join s.stopKeepAlive.fail t
  rw [← hroster] at hclosed hstage'
  rw [roster_setStage]
  exact hclosed.append (Roster.Move.goOn .closing hstage'
    ⟨rfl, rfl, rfl, rfl, trivial, fun _ => trivial, fun h => by cases h⟩ hjoin).moves

/-- Every call opens what it asks for in its first turn, goes on or ends. -/
theorem beginCall_moves (call : LinkCall) (hstage : s.roster.stages[t]? = some (.called call)) :
    s.roster.Moves [] (s.beginCall t call).1.roster := by
  cases call with
  | send frame handler =>
    refine s.beginSend_moves t frame hstage rfl rfl ?_ fun _ => rfl
    refine ⟨rfl, rfl, rfl, rfl, trivial, fun hown => ?_, fun h => by cases h⟩
    rcases handler with - | key | key
    · exact trivial
    · exact trivial
    · exact hown.elim
  | request message kind bound =>
    exact s.beginRequest_moves t message kind bound .request hstage
      ⟨rfl, rfl, rfl, trivial, trivial⟩ rfl
  | handshake application url =>
    unfold beginCall
    generalize s.config.handshakeTimeout = timeout
    cases timeout with
    | error reason => exact s.conclude_moves t _ hstage rfl rfl
    | ok bound =>
      exact s.beginRequest_moves t _ _ bound .handshake hstage
        ⟨rfl, rfl, rfl, trivial, trivial⟩ rfl
  | submit id script seconds =>
    exact s.beginSubmit_moves t id script seconds hstage ⟨rfl, rfl, rfl, trivial, trivial⟩ rfl
  | execute script =>
    exact beginSubmit_moves { s with lastId := followingId s.lastId } t _ script _ hstage
      ⟨rfl, rfl, rfl, trivial, trivial⟩ rfl
  | ping =>
    refine s.beginSend_moves t pingFrame hstage rfl rfl ?_ fun _ => rfl
    exact ⟨rfl, rfl, rfl, rfl, trivial, fun _ => trivial, fun h => by cases h⟩
  | close => exact s.beginClose_moves t hstage
  | keepAlive period =>
    dsimp only [beginCall]
    rw [roster_setStage]
    have hgoesOn : (Stage.called (.keepAlive period)).GoesOnTo
        (.pausing period (Clock.next s.now (s.now * Clock.tick) period)) :=
      ⟨rfl, rfl, rfl, rfl, trivial, fun _ => trivial, fun h => by cases h⟩
    exact (Roster.Move.goOn _ hstage hgoesOn (s.keepsWriter_same t)).moves

/-! ### Any turn of a call -/

/-- A call that leaves the line ends. -/
theorem roster_leave_ended (s : Link) (t : Nat) :
    ((s.leaveLine t).setStage t .ended).roster =
      { s.roster with line := s.roster.line.filter (· != t) }.move t .ended := by
  rw [roster_setStage, roster_leaveLine]
  rfl

/-- A call that writes and is given up lets go of its handler and of its purpose. -/
theorem dropTask_sending_moves {purpose : Purpose} {step : SendStep}
    (hstage : s.roster.stages[t]? = some (.sending purpose step)) :
    s.roster.Moves [] (s.dropTask t (.sending purpose step)).roster := by
  have hgiven := quit_moves t hstage (s.keepsWriter_leave t)
  have hgiveUp (r : Roster) (new : Stage) :
      (r.move t new).giveUp purpose = (r.giveUp purpose).move t new := by
    cases purpose <;> rfl
  cases step with
  | inLine frame handler =>
    cases handler with
    | none =>
      dsimp only [dropTask]
      rw [roster_giveUp, roster_leave_ended, hgiveUp]
      exact hgiven
    | some handler =>
      have hletGo (r : Roster) (new : Stage) :
          (r.move t new).letGo handler = (r.letGo handler).move t new := by
        cases handler <;> rfl
      dsimp only [dropTask]
      rw [roster_giveUp, roster_letGo, roster_leave_ended, hletGo, hgiveUp]
      exact hgiven
  | holding | flushing =>
    dsimp only [dropTask]
    rw [roster_giveUp, roster_leave_ended, hgiveUp]
    exact hgiven

/-- A call that is ended wherever it stands gives up all that it has. -/
theorem dropTask_moves (hstage : s.roster.stages[t]? = some stage) :
    s.roster.Moves [] (s.dropTask t stage).roster := by
  have hquit (response : Option Nat) :=
    (Roster.Move.quit response hstage (s.keepsWriter_leave t)).moves
  cases stage with
  | called call =>
    cases call with
    | send frame handler =>
      cases handler with
      | none =>
        dsimp only [dropTask]
        rw [roster_leave_ended]
        exact hquit none
      | some handler =>
        dsimp only [dropTask]
        rw [roster_letGo, roster_leave_ended]
        cases handler <;> exact hquit none
    | _ =>
      dsimp only [dropTask]
      rw [roster_leave_ended]
      exact hquit none
  | sending purpose step => exact s.dropTask_sending_moves t hstage
  | replying key bound use deadline =>
    dsimp only [dropTask]
    rw [roster_unregister, roster_leave_ended]
    exact hquit none
  | pulling key call =>
    dsimp only [dropTask]
    rw [roster_changeChannel, roster_leave_ended]
    exact hquit (some key)
  | closing | watching | pausing | ended =>
    dsimp only [dropTask]
    rw [roster_leave_ended]
    exact hquit none

/-- A call that closes the link ends once it has shut the writer down. -/
theorem closing_moves (hstage : s.roster.stages[t]? = some .closing) :
    s.roster.Moves []
      (if s.hasWriter t then
        (({ s with writer := s.writer.shutdown }.leaveLine t).conclude t .closed, false)
      else (s, false)).1.roster := by
  split
  · rw [roster_conclude, roster_leaveLine]
    have hgoesOn : Stage.closing.GoesOnTo .ended :=
      ⟨rfl, rfl, rfl, rfl, trivial, fun _ => trivial, fun _ => rfl⟩
    exact (Roster.Move.goOn _ hstage hgoesOn (s.keepsWriter_leave t)).moves
  · exact .nil s.roster

end Link

end BeeProtocol
