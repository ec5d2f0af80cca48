import BeeProtocol.Proofs.Link.Changes
import BeeProtocol.Proofs.Statement.Pull

/-!
# Custody of handlers

The custody of a link is what matters to the handlers of statements: the stages of the calls, some
of which carry a handler that is not registered yet, the handlers that wait, the one that the reader
holds, and what the statements have come to. Most of what a link does leaves the custody alone.
-/

namespace BeeProtocol

/-- The id of a statement and what it has come to: its phase, its header and its failure. -/
abbrev StatementEntry : Type :=
  UInt32 × StatementPhase × Option (List Column) × Option ClientError

/-- The entry of the statement on a channel. -/
def Channel.entry (c : Channel) : StatementEntry := (c.id, c.answer)

/-- What a statement has come to after it is failed. -/
def Channel.endEntry (reason : ClientError) (entry : StatementEntry) : StatementEntry :=
  if entry.2.1 = .done then entry
  else (entry.1, .done, entry.2.2.1, entry.2.2.2.or (some reason))

/-- The end of a statement is entered. -/
theorem Channel.finish_entry (c : Channel) (reason : ClientError) :
    (c.finish (some reason)).entry = endEntry reason c.entry := by
  unfold finish isDone endEntry
  cases hphase : c.phase <;> simp [entry, answer, hphase]

/-- Freeing a slot is not entered. -/
@[simp] theorem Channel.release_entry (c : Channel) : c.release.entry = c.entry := by
  unfold release
  split <;> rfl

/-- Taking a row is not entered. -/
theorem Channel.take_entry (c : Channel) : c.take.2.entry = c.entry := by
  rcases c.take_eq with ⟨reason, -, htake⟩ | ⟨-, -, htake⟩ | ⟨row, rows, -, -, htake⟩
  · rw [htake]
  · rw [htake]
  · rw [htake, release_entry]
    rfl

/-- Storing a row is not entered. -/
theorem Channel.store_entry (c : Channel) (row : Row) : (c.store row).1.entry = c.entry := by
  unfold store
  split <;> try rfl
  split <;> rfl

/-- A turn of a call changes neither the id of a statement nor what it has come to. -/
theorem PullCall.turn_entry (call : PullCall) (now : Nat) (c : Channel) :
    (call.turn now c).2.entry = c.entry := by
  rcases call.turn_cases now c with hpasses | ⟨htakes, hfailure, row, rows, hrows⟩
  · rw [hpasses.1]
  · rw [turn_takes htakes now hfailure hrows, Channel.release_entry]
    rfl

/-- The key of the handler of a statement. -/
def Handler.statement? : Handler → Option Nat
  | statement key => some key
  | reply _ => none

/-- Who has which handler of a statement, and what the statements have come to. -/
structure Custody where
  /-- The stages of the calls, by key. -/
  stages : List Stage
  /-- The keys of the handlers that wait for frames. -/
  waiting : List Nat
  /-- The statements, by key. -/
  entries : List StatementEntry
  /-- Whether the link is closed. -/
  isClosed : Bool
  /-- What the reader is doing. -/
  reading : ReaderStage
  /-- Whether the reader is to end. -/
  isAborted : Bool

namespace Custody

/-- Lets go of a handler. -/
def letGo (c : Custody) : Handler → Custody
  | .statement key =>
    { c with entries := c.entries.modify key (Channel.endEntry .connectionClosed) }
  | .reply _ => c

/-- Closes the link and lets go of every handler that waits. -/
def shut (c : Custody) : Custody :=
  if c.isClosed then c
  else
    c.waiting.foldl (fun c key => c.letGo (.statement key))
      { c with isClosed := true, waiting := [] }

/-- Stops the reader at its next turn. -/
def stop (c : Custody) : Custody :=
  match c.reading with
  | .stopped => c
  | _ => { c with isAborted := true }

/-- Moves a call to a stage. -/
def move (c : Custody) (key : Nat) (stage : Stage) : Custody :=
  { c with stages := c.stages.set key stage }

end Custody

namespace Roster

/-- What the custody of a link takes over from its roster. -/
def custody (r : Roster) : Custody where
  stages := r.stages
  waiting := r.pending.filterMap Handler.statement?
  entries := r.channels.map Channel.entry
  isClosed := r.isClosed
  reading := r.reading
  isAborted := r.isAborted

variable (r : Roster)

/-- A change of a channel changes the entry of its statement. -/
theorem custody_change {r : Roster} {key : Nat} {c : Channel} (h : r.channels[key]? = some c)
    (change : Channel → Channel) :
    (r.change key change).custody =
      { r.custody with entries := r.custody.entries.set key (change c).entry } := by
  rw [change_eq h]
  simp [custody, List.map_set]

/-- A change that keeps the id and the answer of a channel leaves the custody alone. -/
theorem custody_change_of_entry (key : Nat) {change : Channel → Channel}
    (hkeeps : ∀ c, r.channels[key]? = some c → (change c).entry = c.entry) :
    (r.change key change).custody = r.custody := by
  cases h : r.channels[key]? with
  | none => rw [Roster.change, List.modify_eq_self (List.getElem?_eq_none_iff.mp h)]
  | some c =>
    have hentry : r.custody.entries[key]? = some c.entry := by simp [custody, h]
    obtain ⟨hkey, hget⟩ := List.getElem?_eq_some_iff.mp hentry
    rw [custody_change h, hkeeps c h, ← hget, List.set_getElem_self]

/-- A custody lets go of a handler as its roster does. -/
theorem custody_letGo (handler : Handler) :
    (r.letGo handler).custody = r.custody.letGo handler := by
  cases handler with
  | reply key => rfl
  | statement key =>
    have hentries : (r.channels.modify key fun c => c.finish (some .connectionClosed)).map
        Channel.entry =
          (r.channels.map Channel.entry).modify key (Channel.endEntry .connectionClosed) := by
      apply List.ext_getElem?
      intro i
      simp only [List.getElem?_map, List.getElem?_modify]
      cases r.channels[i]? with
      | none => rfl
      | some c => by_cases hi : key = i <;> simp [hi, Channel.finish_entry]
    simp only [letGo, change, custody, hentries, Custody.letGo]

/-- A custody is closed as its roster. -/
theorem custody_shut : r.shut.custody = r.custody.shut := by
  have hfold (pending : List Handler) (r : Roster) :
      (pending.foldl letGo r).custody =
        (pending.filterMap Handler.statement?).foldl (fun c key => c.letGo (.statement key))
          r.custody := by
    induction pending generalizing r with
    | nil => rfl
    | cons handler pending ih =>
      rw [List.foldl_cons, ih, custody_letGo]
      cases handler <;> rfl
  have hclosed : r.custody.isClosed = r.isClosed := rfl
  unfold shut Custody.shut
  rw [hclosed]
  split
  · rfl
  · exact hfold r.pending { r with isClosed := true, pending := [] }

/-- The reader of a custody is stopped as that of its roster. -/
theorem custody_stop : r.stop.custody = r.custody.stop := by
  obtain ⟨stages, line, pending, channels, replies, isClosed, stage, isAborted⟩ := r
  cases stage <;> rfl

/-- Handlers of single replies do not count among the handlers of statements. -/
theorem custody_unregister_reply (key : Nat) :
    (r.unregister (.reply key)).custody = r.custody := by
  have hwaiting : (r.pending.filter (· != .reply key)).filterMap Handler.statement? =
      r.pending.filterMap Handler.statement? := by
    induction r.pending with
    | nil => rfl
    | cons handler pending ih =>
      cases handler with
      | statement other =>
        rw [List.filter_cons_of_pos (by simp), List.filterMap_cons, List.filterMap_cons, ih]
      | reply other =>
        rw [List.filterMap_cons_none rfl, ← ih]
        by_cases hkey : other = key
        · rw [List.filter_cons_of_neg (by simp [hkey])]
        · rw [List.filter_cons_of_pos (by simpa using hkey), List.filterMap_cons_none rfl]
  simp [custody, unregister, hwaiting]

/-- What a call gives up concerns neither a handler of a statement nor what it has come to. -/
theorem custody_giveUp (purpose : Purpose) : (r.giveUp purpose).custody = r.custody := by
  cases purpose with
  | reply key bound use => exact r.custody_unregister_reply key
  | statement key => exact r.custody_change_of_entry key fun _ _ => rfl
  | _ => rfl

end Roster

namespace Link

/-- The custody of a link. -/
def custody (s : Link) : Custody where
  stages := s.tasks.map (·.stage)
  waiting := s.pending.filterMap Handler.statement?
  entries := s.channels.map Channel.entry
  isClosed := s.isClosed
  reading := s.reader.stage
  isAborted := s.reader.isAborted

variable (s : Link)

/-- The custody of a link shows of a function what its roster does. -/
theorem custody_eq : s.custody = s.roster.custody := rfl

/-! ### Waking and changing parts -/

/-- A call that is put at a stage moves there. -/
@[simp] theorem custody_setStage (key : Nat) (stage : Stage) :
    (s.setStage key stage).custody = s.custody.move key stage := by
  rw [custody_eq, roster_setStage]
  rfl

/-- A call that ends moves to its last stage. -/
@[simp] theorem custody_conclude (key : Nat) (result : LinkResult) :
    (s.conclude key result).custody = s.custody.move key .ended := by
  rw [custody_eq, roster_conclude]
  rfl

/-- A task that is added stands at its stage. -/
@[simp] theorem custody_addTask (label : Option Nat) (stage : Stage) :
    (s.addTask label stage).custody =
      { s.custody with stages := s.custody.stages ++ [stage] } := by
  rw [custody_eq, roster_addTask]
  rfl

/-- A channel that is opened comes with the entry of its statement. -/
@[simp] theorem custody_addChannel (channel : Channel) :
    (s.addChannel channel).custody =
      { s.custody with entries := s.custody.entries ++ [channel.entry] } := by
  simp [custody, addChannel, isClosed]

/-- A change of a reply does not show. -/
@[simp] theorem custody_changeReply (key : Nat) (change : ReplyHandler → ReplyHandler) :
    (s.changeReply key change).custody = s.custody := by
  rw [custody_eq, roster_changeReply]
  rfl

/-- A change of a channel changes the entry of its statement. -/
theorem custody_changeChannel {key : Nat} {c : Channel} (h : s.channels[key]? = some c)
    (change : Channel → Channel) :
    (s.changeChannel key change).custody =
      { s.custody with entries := s.custody.entries.set key (change c).entry } := by
  rw [custody_eq, roster_changeChannel]
  exact Roster.custody_change h change

/-- A change that keeps the id and the answer of a channel leaves the custody alone. -/
theorem custody_changeChannel_of_entry (key : Nat) {change : Channel → Channel}
    (hkeeps : ∀ c, s.channels[key]? = some c → (change c).entry = c.entry) :
    (s.changeChannel key change).custody = s.custody := by
  rw [custody_eq, roster_changeChannel]
  exact s.roster.custody_change_of_entry key hkeeps

/-! ### Handlers that wait -/

/-- A custody lets go of a handler as its link does. -/
@[simp] theorem custody_letGo (handler : Handler) :
    (s.letGo handler).custody = s.custody.letGo handler := by
  rw [custody_eq, roster_letGo, Roster.custody_letGo]
  rfl

/-- Handlers of single replies do not count among the handlers of statements. -/
@[simp] theorem custody_unregister_reply (key : Nat) :
    (s.unregister (.reply key)).custody = s.custody := s.roster.custody_unregister_reply key

/-- An open link registers a handler behind the others. -/
theorem custody_register (h : s.isClosed = false) (handler : Handler) :
    (s.register handler).custody =
      { s.custody with waiting := s.custody.waiting ++ handler.statement?.toList } := by
  rw [s.register_of_open h]
  cases handler <;> simp [custody, isClosed, Handler.statement?]

/-- An open link puts the handler of a statement back in front of the others. -/
theorem custody_requeue (h : s.isClosed = false) (key : Nat) :
    (s.requeue (.statement key)).custody =
      { s.custody with waiting := key :: s.custody.waiting } := by
  rw [s.requeue_of_open h]
  rfl

/-- A custody is closed as its link. -/
@[simp] theorem custody_shutdown : s.shutdown.custody = s.custody.shut := by
  rw [custody_eq, roster_shutdown, Roster.custody_shut]
  rfl

/-- Failing a link closes it and stops its reader. -/
@[simp] theorem custody_fail : s.fail.custody = s.custody.shut.stop := by
  rw [custody_eq, roster_fail, Roster.custody_stop, Roster.custody_shut]
  rfl

/-- A custody does not show that a link was marked open. -/
@[simp] theorem custody_markOpen : s.markOpen.custody = s.custody := by
  rw [custody_eq, roster_markOpen, custody_eq]

/-! ### Calls -/

/-- A custody does not show the line. -/
@[simp] theorem custody_joinLine (key : Nat) : (s.joinLine key).custody = s.custody := rfl

/-- A custody does not show who leaves the line. -/
@[simp] theorem custody_leaveLine (key : Nat) : (s.leaveLine key).custody = s.custody := by
  rw [custody_eq, roster_leaveLine]
  rfl

/-- A response that is dropped does not show. -/
@[simp] theorem custody_changeChannel_drop (key : Nat) :
    (s.changeChannel key Channel.drop).custody = s.custody :=
  s.custody_changeChannel_of_entry key fun _ _ => rfl

/-- What a call gives up does not show. -/
@[simp] theorem custody_giveUp (purpose : Purpose) : (s.giveUp purpose).custody = s.custody := by
  rw [custody_eq, roster_giveUp, Roster.custody_giveUp]
  rfl

/-- A call that fails ends. -/
@[simp] theorem custody_failSend (key : Nat) (purpose : Purpose) (reason : ClientError) :
    (s.failSend key purpose reason).custody = s.custody.move key .ended := by
  rw [failSend, custody_conclude, custody_giveUp]

/-- A call that cannot write closes the link and ends. -/
@[simp] theorem custody_failWrite (key : Nat) (purpose : Purpose) (reason : ProtocolError) :
    (s.failWrite key purpose reason).custody = s.custody.shut.stop.move key .ended := by
  rw [failWrite, custody_failSend, custody_fail, custody_leaveLine]

/-- A custody does not show that a task is to end. -/
@[simp] theorem custody_stopKeepAlive : s.stopKeepAlive.custody = s.custody := by
  rw [custody_eq, roster_stopKeepAlive, custody_eq]

/-- Starting to send pings adds a call that carries no handler. -/
theorem custody_startKeepAlive :
    s.startKeepAlive.custody = s.custody ∨
      ∃ period, s.startKeepAlive.custody =
        { s.custody with stages := s.custody.stages ++ [.called (.keepAlive period)] } := by
  rcases s.roster_startKeepAlive with hsame | ⟨period, hadded⟩
  · exact .inl (congrArg Roster.custody hsame)
  · exact .inr ⟨period, congrArg Roster.custody hadded⟩

/-! ### The reader -/

/-- The reader of a custody is put at a stage as that of its link. -/
@[simp] theorem custody_setReader (stage : ReaderStage) :
    (s.setReader stage).custody = { s.custody with reading := stage } := rfl

end Link

end BeeProtocol
