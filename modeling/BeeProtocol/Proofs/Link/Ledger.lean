import BeeProtocol.Proofs.Frame.Recovery
import BeeProtocol.Proofs.Link.Run

/-!
# Ledgers

The ledger of a link holds what is only ever added to: the statement ids that were allocated, the
ids of the statements that were opened, the bytes that were put into the out-buffer and the calls
that ended by closing the link. What an action adds can be read off the link before it. The phase
may change besides, but only forward, and it opens only by an acceptance.
-/

namespace BeeProtocol

/-- How far a phase lies from the beginning of a link's life. -/
def LinkPhase.rank : LinkPhase → Nat
  | connecting => 0
  | opened => 1
  | closed => 2

/-- Whether a handshake takes a reply for an acceptance. -/
def Message.accepts : Message → Bool
  | connectResponse response => response.isAccepted
  | _ => true

/-- Whether a call has ended by closing the link. -/
def LinkResult.isClosing : LinkResult → Bool
  | closed => true
  | _ => false

/-- What a link has allocated, opened, written and ended. -/
structure Ledger where
  /-- The settings. -/
  config : Config
  /-- Whether the link is connecting, open or closed. -/
  phase : LinkPhase
  /-- The latest statement id that was allocated. -/
  lastId : Nat
  /-- The ids of all statements, by key. -/
  ids : List UInt32
  /-- All bytes that were put into the out-buffer. -/
  bytes : List UInt8
  /-- The labels of the calls that have ended by closing the link. -/
  closers : List Nat

/-- What an action adds to a ledger. -/
structure Entry where
  /-- The number of statement ids that are allocated. -/
  allocated : Nat := 0
  /-- The ids of the statements that are opened. -/
  opened : List UInt32 := []
  /-- The frames that are put into the out-buffer, with the calls that write them. -/
  written : List (Nat × Frame) := []
  /-- The labels of the calls that end by closing the link. -/
  closers : List Nat := []

namespace Ledger

/-- Adds an entry. -/
def add (l : Ledger) (entry : Entry) : Ledger :=
  { l with
    lastId := Link.followingId^[entry.allocated] l.lastId
    ids := l.ids ++ entry.opened
    bytes := l.bytes ++ Frame.envelopes (entry.written.map (·.2))
    closers := l.closers ++ entry.closers }

/-- An entry of nothing changes nothing. -/
@[simp] theorem add_empty (l : Ledger) : l.add {} = l := by
  simp [add, Frame.envelopes]

/-- Two entries add up. -/
theorem add_add (l : Ledger) (entry entry' : Entry) :
    (l.add entry).add entry' =
      l.add
        { allocated := entry'.allocated + entry.allocated
          opened := entry.opened ++ entry'.opened
          written := entry.written ++ entry'.written
          closers := entry.closers ++ entry'.closers } := by
  simp [add, Frame.envelopes, Function.iterate_add_apply]

/-- Nothing is different but the phase, which is not an earlier one. -/
def Aged (l l' : Ledger) : Prop :=
  ∃ phase, l.phase.rank ≤ phase.rank ∧ l' = { l with phase := phase }

/-- No time need pass. -/
theorem Aged.refl (l : Ledger) : l.Aged l := ⟨l.phase, le_rfl, rfl⟩

/-- Times that pass add up. -/
theorem Aged.trans {l l' l'' : Ledger} (h : l.Aged l') (h' : l'.Aged l'') : l.Aged l'' := by
  obtain ⟨phase, hforward, rfl⟩ := h
  obtain ⟨phase', hforward', rfl⟩ := h'
  exact ⟨phase', hforward.trans hforward', rfl⟩

/-- What is added does not depend on the phase. -/
theorem Aged.foldl_add {l l' : Ledger} (h : l.Aged l') (entries : List Entry) :
    (entries.foldl add l).Aged (entries.foldl add l') := by
  induction entries generalizing l l' with
  | nil => exact h
  | cons entry entries ih =>
    obtain ⟨phase, hforward, rfl⟩ := h
    exact ih ⟨phase, hforward, rfl⟩

/-- Nothing is different but the phase: the link may be closed now, or open, which it becomes only
from connecting and by an acceptance. -/
inductive Passes (l : Ledger) (accepted : Bool) : Ledger → Prop
  | stays : l.Passes accepted l
  | closes : l.Passes accepted { l with phase := .closed }
  | opens (haccepted : accepted) (hconnecting : l.phase = .connecting) :
    l.Passes accepted { l with phase := .opened }

/-- A phase passes if it stays. -/
theorem Passes.of_eq {l l' : Ledger} {accepted : Bool} (h : l' = l) : l.Passes accepted l' :=
  h ▸ .stays

/-- Passages of the phase add up. -/
theorem Passes.trans {l l' l'' : Ledger} {accepted : Bool} (h : l.Passes accepted l')
    (h' : l'.Passes accepted l'') : l.Passes accepted l'' := by
  cases h with
  | stays => exact h'
  | closes =>
    cases h' with
    | stays => exact .closes
    | closes => exact .closes
    | opens haccepted hconnecting => cases hconnecting
  | opens haccepted hconnecting =>
    cases h' with
    | stays => exact .opens haccepted hconnecting
    | closes => exact .closes
    | opens _ hopened => cases hopened

/-- A phase stays, ends, or opens when a handshake is accepted. -/
theorem Passes.phase {l l' : Ledger} {accepted : Bool} (h : l.Passes accepted l') :
    l'.phase = l.phase ∨ l'.phase = .closed ∨
      accepted ∧ l.phase = .connecting ∧ l'.phase = .opened := by
  cases h with
  | stays => exact .inl rfl
  | closes => exact .inr (.inl rfl)
  | opens haccepted hconnecting => exact .inr (.inr ⟨haccepted, hconnecting, rfl⟩)

/-- Closing is the last phase. -/
theorem Passes.aged {l l' : Ledger} {accepted : Bool} (h : l.Passes accepted l') : l.Aged l' := by
  cases h with
  | stays => exact .refl l
  | closes =>
    refine ⟨.closed, ?_, rfl⟩
    cases l.phase <;> decide
  | opens haccepted hconnecting =>
    refine ⟨.opened, ?_, rfl⟩
    rw [hconnecting]
    decide

end Ledger

namespace Writer

/-- The bytes that the stream has taken, and behind them those that it has not. -/
def bytes (w : Writer) : List UInt8 := w.taken ++ w.outbox

/-- The stream takes bytes in the order in which they were put into the out-buffer. -/
theorem give_bytes (w : Writer) (count : Nat) : (w.give count).bytes = w.bytes := by
  simp [bytes, give, taken, List.append_assoc]

/-- Flushing moves bytes and writes none. -/
theorem flush_bytes (w : Writer) : w.flush.1.bytes = w.bytes := by
  unfold flush
  split
  · exact w.give_bytes _
  · rename_i room _
    exact give_bytes { w with mode := .limited _ } _
  · rfl
  · exact w.give_bytes _
  · rfl

end Writer

namespace Roster

/-- The ids of the statements, by key. -/
def ids (r : Roster) : List UInt32 := r.channels.map (·.id)

variable (r : Roster)

/-- A change of a channel that leaves the id leaves all ids. -/
theorem ids_change (key : Nat) {change : Channel → Channel}
    (h : ∀ c, r.channels[key]? = some c → (change c).id = c.id) :
    (r.change key change).ids = r.ids := by
  apply List.ext_getElem?
  intro i
  simp only [ids, Roster.change, List.getElem?_map, List.getElem?_modify]
  cases hchannel : r.channels[i]? with
  | none => rfl
  | some c =>
    by_cases hi : key = i
    · subst hi
      simp [h c hchannel]
    · simp [hi]

/-- Letting go of a handler leaves all ids. -/
theorem ids_letGo (handler : Handler) : (r.letGo handler).ids = r.ids := by
  cases handler with
  | statement key => exact r.ids_change key fun c _ => c.finish_id _
  | reply key => rfl

/-- Closing leaves all ids. -/
theorem ids_shut : r.shut.ids = r.ids :=
  shut_invariant (P := fun r' => r'.ids = r.ids) rfl rfl fun r' handler h =>
    (r'.ids_letGo handler).trans h

/-- What a call gives up leaves all ids. -/
theorem ids_giveUp (purpose : Purpose) : (r.giveUp purpose).ids = r.ids := by
  cases purpose with
  | statement key => exact r.ids_change key fun _ _ => rfl
  | _ => rfl

end Roster

namespace Link

/-- The ledger of a link. -/
def ledger (s : Link) : Ledger where
  config := s.config
  phase := s.phase
  lastId := s.lastId
  ids := s.channels.map (·.id)
  bytes := s.writer.bytes
  closers := (s.finished.filter (·.2.isClosing)).map (·.1)

/-- The statement that is opened when one is submitted. -/
def submitted (id : UInt16) (script : String) (seconds : UInt32) : List UInt32 :=
  match (Message.statementRequest ⟨id.toUInt32, script, seconds⟩).toFrame with
  | .ok _ => [id.toUInt32]
  | .error _ => []

/-- What a call adds in a turn in which it is not ended. -/
def callEntry (s : Link) (t : Nat) (label : Option Nat) : Stage → Entry
  | .called (.submit id script seconds) => { opened := submitted id script seconds }
  | .called (.execute script) =>
    { allocated := 1, opened := submitted s.nextId.1 script s.config.statementTimeoutSeconds }
  | .sending _ (.holding frame) =>
    if s.writer.outbox.length < Writer.boundary ∧ frame.payload.length ≤ s.codec.limit then
      { written := [(t, frame)] }
    else {}
  | .closing => if s.hasWriter t then { closers := label.toList } else {}
  | _ => {}

/-- What an action adds. -/
def entryAt (s : Link) : Action → Entry
  | .statement _ _ id _ _ => { opened := [id] }
  | .allocate count => { allocated := count }
  | .turn (.task t) =>
    match s.tasks[t]? with
    | some task => if task.isAborted then {} else s.callEntry t task.label task.stage
    | none => {}
  | _ => {}

/-- Whether a call at a stage has a reply that accepts its handshake. -/
def isAcceptedAt (s : Link) : Stage → Bool
  | .replying key _ use _ =>
    use == .handshake && ((s.replies[key]?).bind (·.promise.outcome)).any fun
      | .ok message => message.accepts
      | .error _ => false
  | _ => false

/-- Whether an action marks the link open: from outside, or as a handshake that was accepted ends.
-/
def marksOpen (s : Link) : Action → Bool
  | .markOpen => true
  | .turn (.task t) =>
    (s.tasks[t]?).any fun task => !task.isAborted && s.isAcceptedAt task.stage
  | _ => false

/-- What the actions of a run add, one after another. -/
def entries (s : Link) : List Action → List Entry
  | [] => []
  | action :: actions => s.entryAt action :: (s.act action).entries actions

variable (s : Link) {accepted : Bool}

/-! ### Waking and changing parts -/

/-- A ledger does not show who was woken. -/
theorem Wakes.ledger {s next : Link} (h : s.Wakes next) : next.ledger = s.ledger :=
  h.view fun _ => rfl

/-- A change of the statements that leaves their ids does not show. -/
theorem ledger_setChannels {channels : List Channel}
    (h : channels.map (·.id) = s.channels.map (·.id)) :
    ({ s with channels := channels } : Link).ledger = s.ledger :=
  congrArg (fun ids => { s.ledger with ids := ids }) h

/-- A ledger does not show where a call stands. -/
@[simp] theorem ledger_setStage (t : Nat) (stage : Stage) :
    (s.setStage t stage).ledger = s.ledger := rfl

/-- A ledger does not show the line. -/
@[simp] theorem ledger_joinLine (t : Nat) : (s.joinLine t).ledger = s.ledger := rfl

/-- A ledger does not show a new reply. -/
@[simp] theorem ledger_addReply (kind : MessageKind) : (s.addReply kind).ledger = s.ledger := rfl

/-- A ledger does not show a new call. -/
@[simp] theorem ledger_addTask (label : Option Nat) (stage : Stage) :
    (s.addTask label stage).ledger = s.ledger := (s.wakes_addTask label stage).ledger

/-- A statement is opened under its id. -/
theorem ledger_addChannel (c : Channel) :
    (s.addChannel c).ledger = s.ledger.add { opened := [c.id] } := by
  simp [addChannel, ledger, Ledger.add, Frame.envelopes]

/-- An id is allocated. -/
theorem ledger_nextId : s.nextId.2.ledger = s.ledger.add { allocated := 1 } := by
  simp [nextId, ledger, Ledger.add, Frame.envelopes]

/-- A change of a channel that leaves the id does not show. -/
theorem ledger_changeChannel (key : Nat) {change : Channel → Channel}
    (h : ∀ c, s.channels[key]? = some c → (change c).id = c.id) :
    (s.changeChannel key change).ledger = s.ledger :=
  (s.wakes_changeChannel key change).ledger.trans
    (s.ledger_setChannels (s.roster.ids_change key h))

/-- A response that is dropped does not show. -/
@[simp] theorem ledger_drop (key : Nat) : (s.changeChannel key Channel.drop).ledger = s.ledger :=
  s.ledger_changeChannel key fun _ _ => rfl

/-- A change of a reply does not show. -/
@[simp] theorem ledger_changeReply (key : Nat) (change : ReplyHandler → ReplyHandler) :
    (s.changeReply key change).ledger = s.ledger := (s.wakes_changeReply key change).ledger

/-- A call that does not end by closing the link ends without a trace. -/
theorem ledger_conclude (t : Nat) {result : LinkResult} (h : result.isClosing = false) :
    (s.conclude t result).ledger = s.ledger := by
  have hnone (labels : List Nat) :
      (labels.map fun label => (label, result)).filter (·.2.isClosing) = [] := by
    simp [h]
  rw [conclude_eq_setStage]
  simp only [ledger, List.filter_append, hnone, List.append_nil]
  rfl

/-- A call that ends by closing the link leaves its label. -/
theorem ledger_conclude_closed {t : Nat} {task : Task} (h : s.tasks[t]? = some task) :
    (s.conclude t .closed).ledger = s.ledger.add { closers := task.label.toList } := by
  have hall : ((task.label.toList.map fun label => (label, LinkResult.closed)).filter
      (·.2.isClosing)).map (·.1) = task.label.toList := by
    cases task.label <;> rfl
  rw [s.conclude_eq h]
  simp only [ledger, Ledger.add, List.filter_append, List.map_append, hall,
    Function.iterate_zero, id, List.append_nil, List.map_nil, Frame.envelopes, List.flatMap_nil]

/-! ### Handlers that wait -/

/-- A ledger does not show that a handler is let go of. -/
@[simp] theorem ledger_letGo (handler : Handler) : (s.letGo handler).ledger = s.ledger :=
  (s.wakes_letGo handler).ledger.trans (s.ledger_setChannels (s.roster.ids_letGo handler))

/-- A ledger does not show that a handler is taken off the queue. -/
@[simp] theorem ledger_unregister (handler : Handler) :
    (s.unregister handler).ledger = s.ledger := rfl

/-- A ledger does not show that a handler is registered. -/
@[simp] theorem ledger_register (handler : Handler) : (s.register handler).ledger = s.ledger := by
  unfold register
  split
  · exact s.ledger_letGo handler
  · rfl

/-- A ledger does not show that a handler is put back. -/
@[simp] theorem ledger_requeue (handler : Handler) : (s.requeue handler).ledger = s.ledger := by
  unfold requeue
  split
  · exact s.ledger_letGo handler
  · rfl

/-- Closing a link moves it to its last phase. -/
theorem ledger_shutdown : s.shutdown.ledger = { s.ledger with phase := .closed } :=
  s.wakes_shutdown.ledger.trans
    (ledger_setChannels { s with phase := .closed } s.roster.ids_shut)

/-- Failing a link moves it to its last phase. -/
theorem ledger_fail : s.fail.ledger = { s.ledger with phase := .closed } :=
  s.wakes_fail.ledger.trans (ledger_setChannels { s with phase := .closed } s.roster.ids_shut)

/-- A link that fails is closed. -/
theorem passes_fail : s.ledger.Passes accepted s.fail.ledger := by
  rw [ledger_fail]
  exact .closes

/-- A link that is shut is closed. -/
theorem passes_shutdown : s.ledger.Passes accepted s.shutdown.ledger := by
  rw [ledger_shutdown]
  exact .closes

/-- Only a link that is connecting is marked open. -/
theorem passes_markOpen : s.ledger.Passes true s.markOpen.ledger := by
  unfold markOpen
  split
  · rename_i hphase
    exact .opens rfl hphase
  · exact .stays

/-! ### Calls -/

/-- A ledger does not show who leaves the line. -/
@[simp] theorem ledger_leaveLine (t : Nat) : (s.leaveLine t).ledger = s.ledger :=
  (s.wakes_leaveLine t).ledger

/-- A ledger does not show what a call gives up. -/
@[simp] theorem ledger_giveUp (purpose : Purpose) : (s.giveUp purpose).ledger = s.ledger :=
  (s.wakes_giveUp purpose).ledger.trans (s.ledger_setChannels (s.roster.ids_giveUp purpose))

/-- A call that fails ends without a trace. -/
@[simp] theorem ledger_failSend (t : Nat) (purpose : Purpose) (reason : ClientError) :
    (s.failSend t purpose reason).ledger = s.ledger := by
  rw [failSend, ledger_conclude _ _ rfl, ledger_giveUp]

/-- A call that cannot write closes the link. -/
theorem passes_failWrite (t : Nat) (purpose : Purpose) (reason : ProtocolError) :
    s.ledger.Passes accepted (s.failWrite t purpose reason).ledger := by
  have hfail : (s.leaveLine t).ledger.Passes accepted (s.leaveLine t).fail.ledger := passes_fail _
  rw [ledger_leaveLine] at hfail
  rwa [failWrite, ledger_failSend]

/-- Wanting to write is not entered. -/
@[simp] theorem ledger_beginSend (t : Nat) (purpose : Purpose) (frame : Frame)
    (handler : Option Handler) : (s.beginSend t purpose frame handler).1.ledger = s.ledger := by
  rcases s.beginSend_cases t purpose frame handler with ⟨-, hsend⟩ | ⟨-, reason, hsend⟩
  · rw [hsend, ledger_setStage, ledger_joinLine]
  · rw [hsend, ledger_failSend]
    cases handler with
    | none => rfl
    | some handler => exact s.ledger_letGo handler

/-- Getting the writer is not entered. -/
@[simp] theorem ledger_enter (t : Nat) (purpose : Purpose) (frame : Frame)
    (handler : Option Handler) : (s.enter t purpose frame handler).1.ledger = s.ledger := by
  have hregistered : (handler.elim s s.register).ledger = s.ledger := by
    cases handler <;> simp
  unfold enter
  dsimp only
  split <;> simp [hregistered]

/-- What a call does once its frame is out is not entered. -/
@[simp] theorem ledger_afterSend (t : Nat) (purpose : Purpose) :
    (s.afterSend t purpose).1.ledger = s.ledger := by
  cases purpose with
  | plain => exact s.ledger_conclude t rfl
  | reply key bound use => rfl
  | statement key => exact s.ledger_conclude t rfl
  | keepAlive period next => rfl

/-- Flushing is not entered. -/
@[simp] theorem ledger_flush :
    ({ s with writer := s.writer.flush.1 } : Link).ledger = s.ledger := by
  simp only [ledger, s.writer.flush_bytes]

/-- What a call that writes adds is the frame that it puts into the out-buffer. -/
theorem passes_sendTurn (t : Nat) (label : Option Nat) (purpose : Purpose) (step : SendStep) :
    (s.ledger.add (s.callEntry t label (.sending purpose step))).Passes accepted
      (s.sendTurn t purpose step).1.ledger := by
  have hflushed (reason : ProtocolError) : s.ledger.Passes accepted
      (({ s with writer := s.writer.flush.1 } : Link).failWrite t purpose reason).ledger := by
    rw [← s.ledger_flush]
    exact passes_failWrite _ t purpose reason
  cases step with
  | inLine frame handler =>
    dsimp only [sendTurn, callEntry]
    rw [Ledger.add_empty]
    split
    · exact .of_eq (s.ledger_enter ..)
    · exact .stays
  | holding frame =>
    dsimp only [sendTurn, callEntry]
    by_cases hroom : s.writer.outbox.length < Writer.boundary
    · rw [if_pos hroom]
      by_cases hsize : frame.payload.length ≤ s.codec.limit
      · have hencoded : s.codec.encode frame = .ok frame.envelope := if_pos hsize
        rw [if_pos ⟨hroom, hsize⟩, hencoded]
        refine .of_eq ?_
        simp [ledger, Ledger.add, Frame.envelopes, Writer.put, Writer.bytes, Writer.taken, setStage]
      · have hrefused : s.codec.encode frame =
            .error (.frameTooLarge frame.payload.length s.codec.limit) := if_neg hsize
        rw [if_neg (by simp [hsize]), hrefused, Ledger.add_empty]
        exact s.passes_failWrite t purpose _
    · rw [if_neg hroom, if_neg (by simp [hroom]), Ledger.add_empty]
      split
      · exact .of_eq s.ledger_flush
      · exact .of_eq s.ledger_flush
      · exact hflushed _
  | flushing =>
    dsimp only [sendTurn, callEntry]
    rw [Ledger.add_empty]
    split
    · exact .of_eq (by simp)
    · exact .of_eq s.ledger_flush
    · exact hflushed _

/-- A ledger does not show that a task is to end. -/
@[simp] theorem ledger_stopKeepAlive : s.stopKeepAlive.ledger = s.ledger := by
  rcases s.stopKeepAlive_cases with ⟨-, hsame⟩ | ⟨key, -, hwakes⟩
  · rw [hsame]
  · exact hwakes.ledger

/-- A ledger does not show that a task is started. -/
@[simp] theorem ledger_startKeepAlive : s.startKeepAlive.ledger = s.ledger := by
  rcases s.startKeepAlive_cases with ⟨-, hsame⟩ | ⟨period, -, hstarted⟩
  · rw [hsame]
  · rw [hstarted]
    exact (ledger_stopKeepAlive _).trans (s.ledger_addTask ..)

/-- A pause between pings is not entered. -/
@[simp] theorem ledger_pauseTurn (t : Nat) (period : Duration) (due : Nat) :
    (s.pauseTurn t period due).1.ledger = s.ledger := by
  unfold pauseTurn
  split
  · split
    · rfl
    · exact s.ledger_beginSend ..
  · rfl

/-- A reply that accepts the handshake marks the link open. -/
theorem concludeHandshake_of_accepts (t : Nat) {reply : Message} (h : reply.accepts) :
    s.concludeHandshake t reply = s.markOpen.startKeepAlive.conclude t .ok := by
  cases reply with
  | connectResponse response =>
    cases response with
    | accepted => rfl
    | rejected error => exact if_pos (beq_iff_eq.mp h)
  | _ => rfl

/-- Any other one is a rejection, which leaves the link as it is. -/
theorem concludeHandshake_of_rejects (t : Nat) {reply : Message} (h : reply.accepts = false) :
    ∃ error, reply = .connectResponse (.rejected error) ∧ error.code ≠ 0 ∧
      s.concludeHandshake t reply = s.conclude t (.failed (.application error)) := by
  cases reply with
  | connectResponse response =>
    cases response with
    | accepted => cases h
    | rejected error =>
      have hcode : error.code ≠ 0 := by simpa [Message.accepts, ConnectResponse.isAccepted] using h
      exact ⟨error, rfl, hcode, if_neg hcode⟩
  | _ => cases h

/-- A handshake that has its reply opens the link if the reply accepts. -/
theorem passes_concludeHandshake (t : Nat) (reply : Message) :
    s.ledger.Passes reply.accepts (s.concludeHandshake t reply).ledger := by
  cases haccepts : reply.accepts with
  | true =>
    rw [concludeHandshake_of_accepts _ _ haccepts, ledger_conclude _ _ rfl, ledger_startKeepAlive]
    exact s.passes_markOpen
  | false =>
    obtain ⟨error, -, -, hconcluded⟩ := s.concludeHandshake_of_rejects t haccepts
    rw [hconcluded]
    exact .of_eq (s.ledger_conclude t rfl)

/-- The turn of a call that waits for a reply opens the link if it accepts a handshake. -/
theorem passes_replyTurn (t key : Nat) (bound : Duration) (use : ReplyUse) (deadline : Nat) :
    s.ledger.Passes (s.isAcceptedAt (.replying key bound use deadline))
      (s.replyTurn t key bound use deadline).ledger := by
  have hended {accepted : Bool} {result : LinkResult} (h : result.isClosing = false) :
      s.ledger.Passes accepted ((s.unregister (.reply key)).conclude t result).ledger :=
    .of_eq (ledger_conclude _ t h)
  unfold replyTurn
  dsimp only [isAcceptedAt]
  cases (s.replies[key]?).bind (·.promise.outcome) with
  | none =>
    dsimp only
    split
    · exact hended rfl
    · exact .stays
  | some outcome =>
    cases outcome with
    | error reason => exact hended rfl
    | ok message =>
      cases use with
      | request => exact hended rfl
      | handshake => exact passes_concludeHandshake (s.unregister (.reply key)) t message

/-- Watching a reply is not entered. -/
@[simp] theorem ledger_watchTurn (t key : Nat) (bound : Option Duration) (deadline : Option Nat) :
    (s.watchTurn t key bound deadline).ledger = s.ledger := by
  unfold watchTurn
  split
  · exact s.ledger_conclude t rfl
  · exact s.ledger_conclude t rfl
  · split
    · exact s.ledger_conclude t rfl
    · rfl
  · rfl

/-- The turn of a call on a response is not entered. -/
@[simp] theorem ledger_pullTurn (t key : Nat) (call : PullCall) :
    (s.pullTurn t key call).1.ledger = s.ledger := by
  unfold pullTurn
  cases hchannel : s.channels[key]? with
  | none => rfl
  | some c =>
    have hturned : (s.changeChannel key fun _ => (call.turn s.now c).2).ledger = s.ledger := by
      refine s.ledger_changeChannel key fun before hbefore => ?_
      obtain rfl := Option.some.inj (hchannel.symm.trans hbefore)
      exact congrArg Prod.fst (call.turn_entry s.now c)
    dsimp only
    split
    · exact hturned
    · exact hturned
    · dsimp only [concludePull]
      split
      · rw [ledger_drop, ledger_conclude _ _ rfl, hturned]
      · rw [ledger_conclude _ _ rfl, hturned]

/-- Asking for a reply is not entered. -/
@[simp] theorem ledger_beginRequest (t : Nat) (message : Message) (kind : MessageKind)
    (bound : Duration) (use : ReplyUse) :
    (s.beginRequest t message kind bound use).1.ledger = s.ledger := by
  unfold beginRequest
  split
  · exact s.ledger_conclude t rfl
  · exact ledger_beginSend ..

/-- Asking to connect is not entered. -/
@[simp] theorem ledger_beginHandshake (t : Nat) (application url : String)
    (timeout : Except DurationOverflow Duration) :
    (s.beginHandshake t application url timeout).1.ledger = s.ledger := by
  cases timeout with
  | error reason => exact s.ledger_conclude t rfl
  | ok bound => exact s.ledger_beginRequest ..

/-- A script that is submitted is entered with the id of its statement, if it has a frame. -/
theorem ledger_beginSubmit (t : Nat) (id : UInt16) (script : String) (seconds : UInt32) :
    (s.beginSubmit t id script seconds).1.ledger =
      s.ledger.add { opened := submitted id script seconds } := by
  unfold beginSubmit submitted
  dsimp only
  cases (Message.statementRequest ⟨id.toUInt32, script, seconds⟩).toFrame with
  | error reason =>
    dsimp only
    rw [ledger_conclude _ _ rfl, Ledger.add_empty]
  | ok frame =>
    dsimp only
    rw [ledger_beginSend, ledger_addChannel]
    rfl

/-- A statement that gets its id from the link is opened under the next one. -/
theorem ledger_beginExecute (t : Nat) (script : String) :
    (s.beginCall t (.execute script)).1.ledger =
      s.ledger.add
        { allocated := 1
          opened := submitted s.nextId.1 script s.config.statementTimeoutSeconds } := by
  have hfirst : s.beginCall t (.execute script) =
      s.nextId.2.beginSubmit t s.nextId.1 script s.config.statementTimeoutSeconds := rfl
  rw [hfirst, ledger_beginSubmit, ledger_nextId, Ledger.add_add]
  rfl

/-- What a call adds in its first turn. -/
theorem passes_beginCall (t : Nat) (label : Option Nat) (call : LinkCall) :
    (s.ledger.add (s.callEntry t label (.called call))).Passes accepted
      (s.beginCall t call).1.ledger := by
  have hnothing {next : Link} (h : next.ledger = s.ledger) :
      (s.ledger.add {}).Passes accepted next.ledger := .of_eq (by rw [h, Ledger.add_empty])
  cases call with
  | send frame handler => exact hnothing (s.ledger_beginSend ..)
  | request message kind bound => exact hnothing (s.ledger_beginRequest ..)
  | handshake application url =>
    unfold beginCall
    generalize s.config.handshakeTimeout = timeout
    exact hnothing (s.ledger_beginHandshake t application url timeout)
  | submit id script seconds => exact .of_eq (s.ledger_beginSubmit t id script seconds)
  | execute script => exact .of_eq (s.ledger_beginExecute t script)
  | ping => exact hnothing (s.ledger_beginSend ..)
  | close =>
    have hclosed : s.stopKeepAlive.ledger.Passes accepted s.stopKeepAlive.fail.ledger :=
      passes_fail _
    rw [ledger_stopKeepAlive] at hclosed
    dsimp only [beginCall, callEntry]
    rwa [Ledger.add_empty]
  | keepAlive period => exact hnothing rfl

/-- Giving up a call is not entered. -/
@[simp] theorem ledger_dropTask (t : Nat) (stage : Stage) :
    (s.dropTask t stage).ledger = s.ledger := by
  unfold dropTask
  dsimp only
  split
  · simp
  · simp
  · simp
  · simp
  · simp
  · simp

/-- What a call adds in a turn. -/
theorem passes_taskTurn (t : Nat) :
    (s.ledger.add (s.entryAt (.turn (.task t)))).Passes (s.marksOpen (.turn (.task t)))
      (s.taskTurn t).1.ledger := by
  unfold taskTurn entryAt marksOpen
  dsimp only
  cases htask : s.tasks[t]? with
  | none => exact .of_eq (s.ledger.add_empty).symm
  | some task =>
    obtain ⟨label, stage, isAborted⟩ := task
    have hnothing {accepted : Bool} {next : Link} (h : next.ledger = s.ledger) :
        (s.ledger.add {}).Passes accepted next.ledger := .of_eq (by rw [h, Ledger.add_empty])
    dsimp only
    cases isAborted with
    | true => exact hnothing (s.ledger_dropTask t stage)
    | false =>
      cases stage with
      | called call => exact s.passes_beginCall t label call
      | sending purpose step => exact s.passes_sendTurn t label purpose step
      | replying key bound use deadline =>
        have hreplied := s.passes_replyTurn t key bound use deadline
        rwa [← s.ledger.add_empty] at hreplied
      | closing =>
        dsimp only [callEntry]
        cases s.hasWriter t with
        | true =>
          have hleft : (({ s with writer := s.writer.shutdown } : Link).leaveLine t).tasks[t]? =
              some ⟨label, .closing, false⟩ := by
            rw [(wakes_leaveLine _ t).tasks]
            exact htask
          refine .of_eq ?_
          change (Link.conclude _ t .closed).ledger = s.ledger.add { closers := label.toList }
          rw [ledger_conclude_closed _ hleft, ledger_leaveLine]
          rfl
        | false => exact hnothing rfl
      | pulling key call => exact hnothing (s.ledger_pullTurn t key call)
      | watching key bound deadline => exact hnothing (s.ledger_watchTurn t key bound deadline)
      | pausing period due => exact hnothing (s.ledger_pauseTurn t period due)
      | ended => exact hnothing rfl

/-! ### The reader -/

/-- What the reader does is not entered. -/
@[simp] theorem ledger_setReader (stage : ReaderStage) : (s.setReader stage).ledger = s.ledger :=
  rfl

/-- Putting a handler back is not entered. -/
@[simp] theorem ledger_putBack (key : Nat) : (s.putBack key).ledger = s.ledger := by
  unfold putBack
  dsimp only
  split <;> simp

/-- Reading on may close the link and does nothing else to its ledger. -/
theorem passes_readMore : s.ledger.Passes accepted s.readMore.1.ledger := by
  unfold readMore
  split
  · exact s.passes_shutdown
  · split
    · exact .stays
    · exact .stays
    · exact .stays
    · rename_i inbound _
      exact passes_shutdown { s with inbound := inbound }

/-- Taking a frame may close the link and does nothing else to its ledger. -/
theorem passes_readFrame : s.ledger.Passes accepted s.readFrame.1.ledger := by
  unfold readFrame
  split
  · rename_i buffer _
    exact passes_readMore { s with reader := { s.reader with buffer := buffer } }
  · dsimp only
    unfold takeMatch
    dsimp only
    split
    · rename_i buffer _ _ _ hmatch
      split at hmatch <;> cases hmatch
      exact .stays
    · rename_i buffer _ _ _ _ hmatch
      split at hmatch <;> cases hmatch
      exact .stays

/-- Decoding a payload is not entered. -/
@[simp] theorem ledger_decodePayload (handler : Handler) (payload : List UInt8) :
    (s.decodePayload handler payload).ledger = s.ledger := by
  unfold decodePayload
  split
  · simp
  · have hheard (key : Nat) :
        (s.changeChannel key fun c => (c.receive payload).1).ledger = s.ledger :=
      s.ledger_changeChannel key fun c _ => c.receive_id payload
    split <;> simp [hheard]

/-- Storing a row is not entered. -/
@[simp] theorem ledger_storeRow (key : Nat) (row : Row) :
    (s.storeRow key row).1.ledger = s.ledger := by
  have hstored : (s.changeChannel key fun c => (c.store row).1).ledger = s.ledger :=
    s.ledger_changeChannel key fun c _ => c.store_id row
  unfold storeRow
  dsimp only
  split <;> simp [hstored]

/-- Cutting off the reader is not entered. -/
@[simp] theorem ledger_dropReader : s.dropReader.ledger = s.ledger := by
  unfold dropReader
  dsimp only
  split
  · simp
  · rw [ledger_changeChannel _ _ fun c _ => c.letGo_id]
    rfl
  · rfl

/-- A turn of the reader may close the link and does nothing else to its ledger. -/
theorem passes_readerTurn : s.ledger.Passes accepted s.readerTurn.1.ledger := by
  unfold readerTurn
  split
  · exact .of_eq s.ledger_dropReader
  · split
    · exact s.passes_readFrame
    · exact .of_eq (s.ledger_decodePayload ..)
    · exact .of_eq (s.ledger_storeRow ..)
    · exact .stays

/-! ### Any action -/

/-- A link that nobody uses may be closed. -/
theorem passes_releaseUnused : s.ledger.Passes accepted s.releaseUnused.ledger := by
  rcases s.releaseUnused_cases with hsame | hsame | hsame <;> rw [hsame]
  · exact .stays
  · exact .of_eq s.ledger_stopKeepAlive
  · rw [ledger_fail, ledger_stopKeepAlive]
    exact .closes

/-- A turn enters what it entails and passes the phase on. -/
theorem passes_turnOf (actor : Actor) :
    (s.ledger.add (s.entryAt (.turn actor))).Passes (s.marksOpen (.turn actor))
      (s.turnOf actor).ledger := by
  let woken : Link := { s with ready := s.ready.erase actor }
  have hwhole (next : Link × Bool)
      (hturn : (s.ledger.add (s.entryAt (.turn actor))).Passes (s.marksOpen (.turn actor))
        next.1.ledger) :
      (s.ledger.add (s.entryAt (.turn actor))).Passes (s.marksOpen (.turn actor))
        (if next.2 then { next.1 with ready := actor :: next.1.ready.erase actor }
          else next.1).releaseUnused.ledger := by
    refine hturn.trans ?_
    split
    · exact passes_releaseUnused { next.1 with ready := actor :: next.1.ready.erase actor }
    · exact next.1.passes_releaseUnused
  cases actor with
  | reader =>
    refine hwhole woken.readerTurn ?_
    have hread : woken.ledger.Passes false woken.readerTurn.1.ledger := woken.passes_readerTurn
    rwa [← woken.ledger.add_empty] at hread
  | task t => exact hwhole (woken.taskTurn t) (woken.passes_taskTurn t)

/-- Cancelling a call may close the link and does nothing else to its ledger. -/
theorem passes_cancel (label : Nat) :
    s.ledger.Passes accepted ((s.cancel? label).getD s).ledger := by
  unfold cancel?
  cases s.tasks.findIdx? fun task => task.label == some label && !task.stage.isEnded with
  | none => exact .stays
  | some t =>
    cases htask : s.tasks[t]? with
    | none =>
      rw [Option.bind_some, htask]
      exact .stays
    | some task =>
      rw [Option.bind_some, htask]
      exact (Ledger.Passes.of_eq (s.ledger_dropTask t task.stage)).trans
        (passes_releaseUnused { s.dropTask t task.stage with
          ready := (s.dropTask t task.stage).ready.filter (· != Actor.task t) })

/-- Ids are allocated one after another. -/
theorem ledger_nextIds (count : Nat) :
    (s.nextIds count).2.ledger = s.ledger.add { allocated := count } := by
  rw [nextIds_eq]
  simp [ledger, Ledger.add, Frame.envelopes]

/-- Whatever is done with a link adds its entry to the ledger. Besides it may close the link, and
open it only if it marks it open. -/
theorem passes_act (action : Action) :
    (s.ledger.add (s.entryAt action)).Passes (s.marksOpen action) (s.act action).ledger := by
  have hsame {accepted : Bool} {next : Link} (h : s.ledger.Passes accepted next.ledger) :
      (s.ledger.add {}).Passes accepted next.ledger := by rwa [Ledger.add_empty]
  cases action with
  | arrive item => exact hsame (.of_eq (s.wakes_arrive item).ledger)
  | setMode mode => exact hsame (.of_eq (s.wakes_setMode mode).ledger)
  | call label call hplain => exact hsame (.of_eq (s.ledger_addTask ..))
  | statement label frame id capacity bound =>
    refine .of_eq ?_
    dsimp only [act, start, entryAt]
    rw [ledger_addTask, ledger_addChannel]
    rfl
  | reply label frame kind => exact hsame (.of_eq (ledger_addTask ..))
  | pull label channel pull bound =>
    refine hsame (.of_eq ?_)
    dsimp only [act, startPull]
    split
    · rfl
    · exact s.ledger_addTask ..
  | watch label reply bound => exact hsame (.of_eq (s.ledger_addTask ..))
  | next channel =>
    refine hsame (.of_eq ?_)
    rw [act, next_snd]
    exact s.ledger_changeChannel channel fun c _ => congrArg Prod.fst c.take_entry
  | dropResponse channel => exact hsame (.of_eq (s.ledger_drop channel))
  | cancel label => exact hsame (s.passes_cancel label)
  | allocate count => exact .of_eq (s.ledger_nextIds count)
  | markOpen => exact hsame s.passes_markOpen
  | giveAway => exact hsame (passes_releaseUnused { s with isHeld := false })
  | pass gap => exact hsame (.of_eq (s.wakes_pass gap).ledger)
  | turn actor => exact s.passes_turnOf actor

/-- The phase stays or moves forward. -/
theorem aged_act (action : Action) :
    (s.ledger.add (s.entryAt action)).Aged (s.act action).ledger := (s.passes_act action).aged

/-- A run adds the entries of its actions one after another. -/
theorem aged_run (actions : List Action) :
    ((s.entries actions).foldl Ledger.add s.ledger).Aged (actions.foldl act s).ledger := by
  induction actions generalizing s with
  | nil => exact .refl _
  | cons action actions ih =>
    have hfirst := (s.aged_act action).foldl_add ((s.act action).entries actions)
    exact hfirst.trans (ih (s.act action))

end Link

end BeeProtocol
