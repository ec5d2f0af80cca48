import BeeProtocol.Proofs.Link.Alertness
import BeeProtocol.Proofs.Statement.Backpressure

/-!
# What spares the reader

As long as nobody closes the link or gives it up and no write fails, whatever is done beside the
reader leaves to it what has arrived, its buffer and its stage, and leaves the handlers of
statements in the queue. A reader that waits for a slot is woken by whoever makes it free.
-/

namespace BeeProtocol

namespace Channel

variable {c c' c'' : Channel} {told told' : Prop}

/-- There are slots for rows, and all of them are accounted for. -/
def HasSlots (c : Channel) : Prop := ∃ capacity, 1 ≤ capacity ∧ c.Accounts capacity

/-- A row waits for a slot, and the response was not dropped. -/
def Waits (c : Channel) : Prop := c.slot = .waiting ∧ c.isDropped = false

/-- A row that was to be stored gets through when this is tried again. -/
def Admits (c : Channel) : Prop := c.slot = .granted ∨ c.isDropped

/-- A row that waits does not get through yet. -/
theorem Waits.not_admits (h : c.Waits) : ¬ c.Admits := by
  simp [Admits, h.1, h.2]

/-- What is done with a channel beside its handler takes no slot from it, and a row that waits goes
on waiting behind the same rows unless its handler was told. -/
structure Heeds (told : Prop) (c c' : Channel) : Prop where
  /-- A row that waits gets through and its handler is told, or it waits on behind the same rows. -/
  waits : c.Waits → told ∧ c'.Admits ∨ c'.Waits ∧ c'.rows = c.rows
  /-- A row that gets through still does. -/
  admits : c.Admits → c'.Admits
  /-- A response that was dropped stays so. -/
  dropped : c.isDropped → c'.isDropped
  /-- The slots are accounted for. -/
  slots : ∀ capacity, c.Accounts capacity → c'.Accounts capacity

namespace Heeds

/-- Changes add up, if what the first one tells is told in the end. -/
theorem trans (h : c.Heeds told c') (htold : told → told') (h' : c'.Heeds told' c'') :
    c.Heeds told' c'' where
  waits hwaits := by
    rcases h.waits hwaits with ⟨hdone, hadmits⟩ | ⟨hwaits', hrows⟩
    · exact .inl ⟨htold hdone, h'.admits hadmits⟩
    · exact (h'.waits hwaits').imp_right fun ⟨hwaits'', hrows'⟩ => ⟨hwaits'', hrows'.trans hrows⟩
  admits hadmits := h'.admits (h.admits hadmits)
  dropped hdropped := h'.dropped (h.dropped hdropped)
  slots capacity haccounts := h'.slots capacity (h.slots capacity haccounts)

/-- Whatever is told, nothing need change. -/
theorem refl (told : Prop) (c : Channel) : c.Heeds told c where
  waits hwaits := .inr ⟨hwaits, rfl⟩
  admits hadmits := hadmits
  dropped hdropped := hdropped
  slots _ haccounts := haccounts

/-- More may be told. -/
theorem mono (h : c.Heeds told c') (htold : told → told') : c.Heeds told' c' :=
  h.trans htold (.refl told' c')

end Heeds

/-- The end of a statement tells the handler if a row waits. -/
theorem heeds_finish (c : Channel) (failure : Option ClientError) :
    c.Heeds (c.tellsHandler (c.finish failure)) (c.finish failure) where
  waits hwaits := by
    refine .inr ⟨?_, c.finish_rows failure⟩
    unfold finish
    split <;> exact hwaits
  admits hadmits := by
    unfold finish
    split <;> exact hadmits
  dropped hdropped := (c.finish_isDropped failure).trans hdropped
  slots _ haccounts := haccounts.finish failure

/-- A dropped response tells the handler if a row waits. -/
theorem heeds_drop (c : Channel) : c.Heeds (c.tellsHandler c.drop) c.drop where
  waits hwaits := .inl ⟨by simp [tellsHandler, drop, hwaits.1, hwaits.2], .inr rfl⟩
  admits _ := .inr rfl
  dropped _ := rfl
  slots _ haccounts := haccounts.drop

/-- A row is taken, and its slot goes to the handler that waits for one. -/
theorem heeds_release {row : Row} {rows : List Row} (hrows : c.rows = row :: rows) :
    c.Heeds (c.tellsHandler { c with rows := rows }.release) { c with rows := rows }.release where
  waits hwaits := .inl (by simp [tellsHandler, release, Admits, hwaits.1])
  admits hadmits := by
    unfold release
    split
    · exact .inl rfl
    · exact hadmits
  dropped hdropped := by
    unfold release
    split <;> exact hdropped
  slots _ haccounts := haccounts.take_row hrows

/-- A row that is taken tells the handler if a row waits. -/
theorem heeds_take (c : Channel) : c.Heeds (c.tellsHandler c.take.2) c.take.2 := by
  rcases c.take_eq with ⟨reason, -, htake⟩ | ⟨-, -, htake⟩ | ⟨row, rows, -, hrows, htake⟩
  · rw [htake]
    exact .refl _ c
  · rw [htake]
    exact .refl _ c
  · rw [htake]
    exact heeds_release hrows

/-- The turn of a call tells the handler if it makes room for a row that waits. -/
theorem heeds_turn (c : Channel) (call : PullCall) (now : Nat) :
    c.Heeds (c.tellsHandler (call.turn now c).2) (call.turn now c).2 := by
  rcases call.turn_cases now c with hpasses | ⟨htakes, hfailure, row, rows, hrows⟩
  · rw [hpasses.1]
    exact .refl _ c
  · rw [PullCall.turn_takes htakes now hfailure hrows]
    exact heeds_release hrows

end Channel

/-- Whether a flush fails. -/
def FlushResult.isFailed : FlushResult → Bool
  | failed _ => true
  | _ => false

/-- Whether a handler stays in the queue when only single replies leave it. -/
def Handler.stays (keep : Nat → Bool) : Handler → Bool
  | statement _ => true
  | reply key => keep key

/-- What the reader has before it, and whether it is wanted. -/
structure Outlook where
  /-- The settings. -/
  config : Config
  /-- What has arrived and was not read. -/
  inbound : List Inbound
  /-- The reader itself. -/
  reader : Reader
  /-- Whether the link has its owner. -/
  isHeld : Bool
  /-- Whether the link is closed. -/
  isClosed : Bool

namespace Link

/-- The outlook of a link. -/
def outlook (s : Link) : Outlook := ⟨s.config, s.inbound, s.reader, s.isHeld, s.isClosed⟩

/-- The reader is left alone, and only single replies leave the queue. -/
structure Spares (s s' : Link) : Prop where
  /-- The reader has the same before it. -/
  outlook : s'.outlook = s.outlook
  /-- Only single replies leave the queue. -/
  pending : ∃ keep, s'.pending = s.pending.filter (Handler.stays keep)
  /-- The reader was woken if it was before. -/
  woken : .reader ∈ s.ready → .reader ∈ s'.ready
  /-- The reader is told of what concerns the row that it holds. -/
  heeds : ∀ (key : Nat) (c : Channel), s.channels[key]? = some c →
    ∃ c' : Channel, s'.channels[key]? = some c' ∧ c.Heeds (.reader ∈ s'.ready) c'
  /-- The slots of all channels are accounted for. -/
  slots : (∀ c ∈ s.channels, c.HasSlots) → ∀ c ∈ s'.channels, c.HasSlots

namespace Spares

variable {s s' s'' : Link}

/-- Nobody leaves a queue in which all handlers stay. -/
theorem filter_stays (handlers : List Handler) :
    handlers.filter (Handler.stays fun _ => true) = handlers :=
  List.filter_eq_self.mpr fun handler _ => by cases handler <;> rfl

/-- What changes nothing of all this and lets nobody fall asleep. -/
theorem of_same (houtlook : s'.outlook = s.outlook) (hpending : s'.pending = s.pending)
    (hwoken : .reader ∈ s.ready → .reader ∈ s'.ready) (hchannels : s'.channels = s.channels) :
    s.Spares s' where
  outlook := houtlook
  pending := ⟨fun _ => true, by rw [hpending, filter_stays]⟩
  woken := hwoken
  heeds key c hc := ⟨c, by rwa [hchannels], .refl _ c⟩
  slots h := by rwa [hchannels]

/-- The reader is spared if nothing is done. -/
theorem refl (s : Link) : s.Spares s := of_same rfl rfl id rfl

/-- The configuration stays as it is. -/
theorem config (h : s.Spares s') : s'.config = s.config := congrArg Outlook.config h.outlook

/-- The reader stays where it is. -/
theorem reading (h : s.Spares s') : s'.roster.reading = s.roster.reading :=
  congrArg (fun outlook : Outlook => outlook.reader.stage) h.outlook

/-- The link stays with its owner. -/
theorem isHeld (h : s.Spares s') : s'.isHeld = s.isHeld := congrArg Outlook.isHeld h.outlook

/-- The link is closed if it was before. -/
theorem isClosed (h : s.Spares s') : s'.isClosed = s.isClosed :=
  congrArg Outlook.isClosed h.outlook

/-- Changes that spare the reader add up. -/
theorem trans (h : s.Spares s') (h' : s'.Spares s'') : s.Spares s'' where
  outlook := h'.outlook.trans h.outlook
  pending := by
    obtain ⟨keep, hkeep⟩ := h.pending
    obtain ⟨keep', hkeep'⟩ := h'.pending
    refine ⟨fun key => keep' key && keep key, ?_⟩
    rw [hkeep', hkeep, List.filter_filter]
    refine List.filter_congr fun handler _ => ?_
    cases handler <;> rfl
  woken hready := h'.woken (h.woken hready)
  heeds key c hc := by
    obtain ⟨c', hc', hheeds⟩ := h.heeds key c hc
    obtain ⟨c'', hc'', hheeds'⟩ := h'.heeds key c' hc'
    exact ⟨c'', hc'', hheeds.trans h'.woken hheeds'⟩
  slots hslots := h'.slots (h.slots hslots)

end Spares

variable (s : Link)

/-! ### Waking and changing parts -/

/-- Waking more actors spares the reader. -/
theorem spares_of_wakes {s next : Link} (h : s.Wakes next) : s.Spares next := by
  obtain ⟨ready, rfl, hkept⟩ := h
  exact .of_same rfl rfl (fun hmem => hkept _ hmem) rfl

/-- The stage of a call is none of the reader's business. -/
theorem spares_setStage (t : Nat) (stage : Stage) : s.Spares (s.setStage t stage) :=
  .of_same rfl rfl id rfl

/-- The line is none of the reader's business. -/
theorem spares_joinLine (t : Nat) : s.Spares (s.joinLine t) := .of_same rfl rfl id rfl

/-- The writer is none of the reader's business. -/
theorem spares_setWriter (writer : Writer) : s.Spares { s with writer := writer } :=
  .of_same rfl rfl id rfl

/-- A new reply spares the reader. -/
theorem spares_addReply (kind : MessageKind) : s.Spares (s.addReply kind) :=
  .of_same rfl rfl id rfl

/-- A new task spares the reader. -/
theorem spares_addTask (label : Option Nat) (stage : Stage) : s.Spares (s.addTask label stage) := by
  have hadded : s.Spares { s with tasks := s.tasks ++ [Task.mk label stage false] } :=
    .of_same rfl rfl id rfl
  exact hadded.trans (spares_of_wakes (s.wakes_addTask label stage))

/-- A new statement spares the reader. -/
theorem spares_addChannel (id : UInt32) (capacity : Nat) (bound : Duration) :
    s.Spares (s.addChannel (.fresh id capacity bound)) where
  outlook := rfl
  pending := ⟨fun _ => true, (Spares.filter_stays _).symm⟩
  woken h := h
  heeds key c hc :=
    ⟨c, (List.getElem?_append_left (List.getElem?_eq_some_iff.mp hc).1).trans hc, .refl _ c⟩
  slots h c hmem := by
    rcases List.mem_append.mp hmem with hmem | hmem
    · exact h c hmem
    · rw [List.mem_singleton.mp hmem]
      exact ⟨_, (Config.clampRows_bounds capacity).1, Channel.accounts_fresh id capacity bound⟩

/-- A change of a channel changes it in its place. -/
theorem channels_changeChannel (key : Nat) (change : Channel → Channel) :
    (s.changeChannel key change).channels = s.channels.modify key change :=
  congrArg Roster.channels (s.roster_changeChannel key change)

/-- The outlook of the reader does not show the channels. -/
@[simp] theorem outlook_changeChannel (key : Nat) (change : Channel → Channel) :
    (s.changeChannel key change).outlook = s.outlook :=
  (s.wakes_changeChannel key change).view fun _ => rfl

/-- A change that tells the handler of a statement wakes the reader. -/
theorem reader_ready_of_tells {key : Nat} {c : Channel} {change : Channel → Channel}
    (hc : s.channels[key]? = some c) (htells : c.tellsHandler (change c)) :
    .reader ∈ (s.changeChannel key change).ready := by
  unfold changeChannel
  rw [hc]
  dsimp only
  rw [if_pos htells]
  exact mem_ready_wake_self _ _

/-- A change of a channel that heeds a handler which waits there. -/
theorem spares_changeChannel (key : Nat) {change : Channel → Channel}
    (hheeds : ∀ c, s.channels[key]? = some c → c.Heeds (c.tellsHandler (change c)) (change c)) :
    s.Spares (s.changeChannel key change) where
  outlook := s.outlook_changeChannel key change
  pending := by
    refine ⟨fun _ => true, ?_⟩
    rw [Spares.filter_stays]
    exact congrArg Roster.pending (s.roster_changeChannel key change)
  woken h := mem_ready_changeChannel h key change
  heeds other c hc := by
    rw [channels_changeChannel, List.getElem?_modify, hc]
    refine ⟨_, rfl, ?_⟩
    split
    · rename_i hkey
      subst hkey
      exact (hheeds c hc).mono (s.reader_ready_of_tells hc)
    · exact .refl _ c
  slots h := by
    rw [channels_changeChannel]
    refine Roster.forall_change (r := s.roster) h key fun c hc => ?_
    rintro ⟨capacity, hpos, haccounts⟩
    exact ⟨capacity, hpos, (hheeds c hc).slots capacity haccounts⟩

/-- The end of a statement spares the reader. -/
theorem spares_finish (key : Nat) (failure : Option ClientError) :
    s.Spares (s.changeChannel key fun c => c.finish failure) :=
  s.spares_changeChannel key fun c _ => c.heeds_finish failure

/-- A dropped response spares the reader. -/
theorem spares_drop (key : Nat) : s.Spares (s.changeChannel key Channel.drop) :=
  s.spares_changeChannel key fun c _ => c.heeds_drop

/-- A change of a reply spares the reader. -/
theorem spares_changeReply (key : Nat) (change : ReplyHandler → ReplyHandler) :
    s.Spares (s.changeReply key change) := by
  have hset : s.Spares { s with replies := s.replies.modify key change } := .of_same rfl rfl id rfl
  exact hset.trans (spares_of_wakes (s.wakes_changeReply key change))

/-- The end of a call spares the reader. -/
theorem spares_conclude (t : Nat) (result : LinkResult) : s.Spares (s.conclude t result) := by
  rw [conclude_eq_setStage]
  exact .of_same rfl rfl id rfl

/-! ### Handlers -/

/-- Letting go of a handler that does not wait in the queue spares the reader. -/
theorem spares_letGo (handler : Handler) : s.Spares (s.letGo handler) := by
  cases handler with
  | statement key => exact s.spares_finish key _
  | reply key => exact s.spares_changeReply key _

/-- Taking the handler of a reply off the queue spares the reader. -/
theorem spares_unregister (key : Nat) : s.Spares (s.unregister (.reply key)) where
  outlook := rfl
  pending := by
    refine ⟨fun other => other != key, List.filter_congr fun handler _ => ?_⟩
    cases handler <;> simp [Handler.stays, bne, Bool.beq_eq_decide_eq]
  woken h := h
  heeds _ c hc := ⟨c, hc, .refl _ c⟩
  slots h := h

/-- Marking a link open spares the reader. -/
theorem spares_markOpen : s.Spares s.markOpen := by
  have hclosed : s.markOpen.isClosed = s.isClosed := congrArg Roster.isClosed s.roster_markOpen
  rw [markOpen_eq] at hclosed ⊢
  exact .of_same (congrArg (fun isClosed => { s.outlook with isClosed := isClosed }) hclosed) rfl id
    rfl

/-- Leaving the line spares the reader. -/
theorem spares_leaveLine (t : Nat) : s.Spares (s.leaveLine t) := by
  have hleft : s.Spares { s with line := s.line.filter (· != t) } := .of_same rfl rfl id rfl
  exact hleft.trans (spares_of_wakes (s.wakes_leaveLine t))

/-- Giving up a purpose spares the reader. -/
theorem spares_giveUp (purpose : Purpose) : s.Spares (s.giveUp purpose) := by
  cases purpose with
  | reply key bound use => exact s.spares_unregister key
  | statement key => exact s.spares_drop key
  | _ => exact .refl s

/-- A call that fails with its purpose spares the reader. -/
theorem spares_failSend (t : Nat) (purpose : Purpose) (reason : ClientError) :
    s.Spares (s.failSend t purpose reason) :=
  (s.spares_giveUp purpose).trans (spares_conclude _ t _)

/-! ### Calls -/

/-- Whether a call closes the link in its next turn, as it was called for that or because its frame
cannot be written. -/
def closesAt (s : Link) : Stage → Bool
  | .called .close => true
  | .sending _ (.holding frame) =>
    if s.writer.outbox.length < Writer.boundary then s.codec.limit < frame.payload.length
    else s.writer.flush.2.isFailed
  | .sending _ .flushing => s.writer.flush.2.isFailed
  | _ => false

/-- The link with the handlers that were registered. -/
def joined (s : Link) (events : List Event) : Link :=
  { s with pending := s.pending ++ Event.registeredIn events }

/-- Nobody joins a queue if no handler is registered. -/
theorem joined_of_nil {events : List Event} (h : Event.registeredIn events = []) :
    s.joined events = s := by rw [joined, h, List.append_nil]

/-- A call that wants to write spares the reader. -/
theorem spares_beginSend (t : Nat) (purpose : Purpose) (frame : Frame) (handler : Option Handler) :
    s.Spares (s.beginSend t purpose frame handler).1 := by
  rcases s.beginSend_cases t purpose frame handler with ⟨-, hsend⟩ | ⟨-, reason, hsend⟩ <;>
    rw [hsend]
  · exact (s.spares_joinLine t).trans (spares_setStage _ t _)
  · cases handler with
    | none => exact s.spares_failSend t purpose _
    | some handler => exact (s.spares_letGo handler).trans (spares_failSend _ t purpose _)

/-- A call that gets the writer registers its handler, and otherwise spares the reader. -/
theorem spares_enter {t : Nat} (purpose : Purpose) (frame : Frame) (handler : Option Handler)
    (hwriter : s.hasWriter t) :
    (s.joined (s.callEvents t (.sending purpose (.inLine frame handler)))).Spares
      (s.enter t purpose frame handler).1 := by
  have hrefused (next : Link) : next.Spares
      ((next.leaveLine t).failSend t purpose .connectionClosed) :=
    (next.spares_leaveLine t).trans (spares_failSend _ t purpose _)
  unfold enter
  dsimp only
  cases hclosed : s.isClosed with
  | true =>
    rw [if_pos rfl]
    cases handler with
    | none =>
      rw [joined_of_nil s rfl]
      exact hrefused s
    | some handler =>
      have hnone : s.callEvents t (.sending purpose (.inLine frame (some handler))) = [] := by
        simp [callEvents, hclosed]
      rw [hnone, joined_of_nil s rfl, Option.elim_some, register_of_isClosed s hclosed]
      exact (s.spares_letGo handler).trans (hrefused _)
  | false =>
    rw [if_neg (by simp)]
    cases handler with
    | none =>
      rw [joined_of_nil s rfl]
      exact s.spares_setStage t _
    | some handler =>
      have hone : s.callEvents t (.sending purpose (.inLine frame (some handler))) =
          [.registered t handler] := by simp [callEvents, hclosed, hwriter]
      have hregistered : s.register handler = s.joined [.registered t handler] := by
        rw [register, if_neg (by simp [hclosed])]
        rfl
      rw [hone, Option.elim_some, hregistered]
      exact spares_setStage _ t _

/-- A call whose frame is out spares the reader. -/
theorem spares_afterSend (t : Nat) (purpose : Purpose) :
    s.Spares (s.afterSend t purpose).1 := by
  cases purpose with
  | plain => exact s.spares_conclude t _
  | reply key bound use => exact s.spares_setStage t _
  | statement key => exact s.spares_conclude t _
  | keepAlive period next => exact s.spares_setStage t _

/-- A call that writes spares the reader as long as its frame can be written. -/
theorem spares_sendTurn (t : Nat) (purpose : Purpose) (step : SendStep)
    (hwrites : s.closesAt (.sending purpose step) = false) :
    (s.joined (s.callEvents t (.sending purpose step))).Spares (s.sendTurn t purpose step).1 := by
  cases step with
  | inLine frame handler =>
    dsimp only [sendTurn]
    split
    · rename_i hwriter
      exact s.spares_enter purpose frame handler hwriter
    · rename_i hwaits
      rw [joined_of_nil s]
      · exact .refl s
      · cases handler <;> simp [callEvents, hwaits, Event.registeredIn, Event.registrations]
  | holding frame =>
    have hnone : Event.registeredIn (s.callEvents t (.sending purpose (.holding frame))) = [] := by
      dsimp only [callEvents]
      split
      · split <;> rfl
      · rfl
    dsimp only [closesAt] at hwrites
    dsimp only [sendTurn]
    rw [joined_of_nil s hnone]
    by_cases hroom : s.writer.outbox.length < Writer.boundary
    · rw [if_pos hroom] at hwrites ⊢
      have hsize : frame.payload.length ≤ s.codec.limit := by simpa using hwrites
      have hencoded : s.codec.encode frame = .ok frame.envelope := if_pos hsize
      rw [hencoded]
      exact (s.spares_setWriter _).trans (spares_setStage _ t _)
    · rw [if_neg hroom] at hwrites ⊢
      split
      · exact s.spares_setWriter _
      · exact s.spares_setWriter _
      · rename_i reason hfailed
        rw [hfailed] at hwrites
        cases hwrites
  | flushing =>
    dsimp only [closesAt] at hwrites
    dsimp only [sendTurn]
    rw [joined_of_nil s rfl]
    split
    · exact ((s.spares_setWriter _).trans (spares_leaveLine _ t)).trans
        (spares_afterSend _ t purpose)
    · exact s.spares_setWriter _
    · rename_i reason hfailed
      rw [hfailed] at hwrites
      cases hwrites

/-- Ending the task that sends pings spares the reader. -/
theorem spares_stopKeepAlive : s.Spares s.stopKeepAlive := by
  rcases s.stopKeepAlive_cases with ⟨-, hsame⟩ | ⟨key, -, hwakes⟩
  · rw [hsame]
    exact .refl s
  · have haborted : s.Spares { s with
        keepAlive := none
        tasks := s.tasks.modify key fun task => { task with isAborted := true } } :=
      .of_same rfl rfl id rfl
    exact haborted.trans (spares_of_wakes hwakes)

/-- Starting to send pings spares the reader. -/
theorem spares_startKeepAlive : s.Spares s.startKeepAlive := by
  rcases s.startKeepAlive_cases with ⟨-, hsame⟩ | ⟨period, -, hstarted⟩
  · rw [hsame]
    exact .refl s
  · let begun := (s.addTask none (.called (.keepAlive period))).stopKeepAlive
    have hnoted : begun.Spares { begun with keepAlive := some s.tasks.length } :=
      .of_same rfl rfl id rfl
    rw [hstarted]
    exact ((s.spares_addTask none _).trans (spares_stopKeepAlive _)).trans hnoted

/-- The turn of a task that pauses between pings spares the reader. -/
theorem spares_pauseTurn (t : Nat) (period : Duration) (due : Nat) :
    s.Spares (s.pauseTurn t period due).1 := by
  unfold pauseTurn
  split
  · split
    · exact s.spares_setStage t _
    · exact s.spares_beginSend ..
  · exact .refl s

/-- A handshake that has its reply spares the reader. -/
theorem spares_concludeHandshake (t : Nat) (reply : Message) :
    s.Spares (s.concludeHandshake t reply) := by
  have hopened : s.Spares (s.markOpen.startKeepAlive.conclude t .ok) :=
    (s.spares_markOpen.trans (spares_startKeepAlive _)).trans (spares_conclude _ t _)
  unfold concludeHandshake
  split
  · split
    · exact hopened
    · exact s.spares_conclude t _
  · exact hopened

/-- The turn of a call that waits for a reply spares the reader. -/
theorem spares_replyTurn (t key : Nat) (bound : Duration) (use : ReplyUse) (deadline : Nat) :
    s.Spares (s.replyTurn t key bound use deadline) := by
  have hended (result : LinkResult) : s.Spares ((s.unregister (.reply key)).conclude t result) :=
    (s.spares_unregister key).trans (spares_conclude _ t _)
  unfold replyTurn
  split
  · cases use with
    | request => exact hended _
    | handshake => exact (s.spares_unregister key).trans (spares_concludeHandshake _ t _)
  · exact hended _
  · split
    · exact hended _
    · exact .refl s

/-- The turn of a call that watches a reply spares the reader. -/
theorem spares_watchTurn (t key : Nat) (bound : Option Duration) (deadline : Option Nat) :
    s.Spares (s.watchTurn t key bound deadline) := by
  unfold watchTurn
  split
  · exact s.spares_conclude t _
  · exact s.spares_conclude t _
  · split
    · exact s.spares_conclude t _
    · exact .refl s
  · exact .refl s

/-- The turn of a call on a response spares the reader. -/
theorem spares_pullTurn (t key : Nat) (call : PullCall) : s.Spares (s.pullTurn t key call).1 := by
  unfold pullTurn
  cases hchannel : s.channels[key]? with
  | none => exact .refl s
  | some c =>
    have hturned : s.Spares (s.changeChannel key fun _ => (call.turn s.now c).2) := by
      refine s.spares_changeChannel key fun before hbefore => ?_
      rw [Option.some.inj (hbefore.symm.trans hchannel)]
      exact c.heeds_turn call s.now
    dsimp only
    split
    · exact hturned.trans (spares_setStage _ t _)
    · exact hturned
    · rename_i result _
      have hended := hturned.trans (spares_conclude _ t (.pulled result))
      dsimp only [concludePull]
      split
      · exact hended.trans (spares_drop _ key)
      · exact hended

/-- A call that begins to ask for a reply spares the reader. -/
theorem spares_beginRequest (t : Nat) (message : Message) (kind : MessageKind) (bound : Duration)
    (use : ReplyUse) : s.Spares (s.beginRequest t message kind bound use).1 := by
  unfold beginRequest
  split
  · exact s.spares_conclude t _
  · exact (s.spares_addReply kind).trans (spares_beginSend ..)

/-- A call that begins to submit a script spares the reader. -/
theorem spares_beginSubmit (t : Nat) (id : UInt16) (script : String) (seconds : UInt32) :
    s.Spares (s.beginSubmit t id script seconds).1 := by
  unfold beginSubmit
  dsimp only
  split
  · exact s.spares_conclude t _
  · exact (s.spares_addChannel ..).trans (spares_beginSend ..)

/-- The first turn of a call other than one to close the link. -/
theorem spares_beginCall (t : Nat) (call : LinkCall) (hopen : s.closesAt (.called call) = false) :
    s.Spares (s.beginCall t call).1 := by
  cases call with
  | send frame handler => exact s.spares_beginSend ..
  | request message kind bound => exact s.spares_beginRequest ..
  | handshake application url =>
    unfold beginCall
    cases s.config.handshakeTimeout with
    | error reason => exact s.spares_conclude t _
    | ok bound => exact s.spares_beginRequest ..
  | submit id script seconds => exact s.spares_beginSubmit ..
  | execute script =>
    have hallocated : s.Spares s.nextId.2 := .of_same rfl rfl id rfl
    exact hallocated.trans (spares_beginSubmit ..)
  | ping => exact s.spares_beginSend ..
  | close => cases hopen
  | keepAlive period => exact s.spares_setStage t _

/-- A call that is given up spares the reader. -/
theorem spares_dropTask (t : Nat) (stage : Stage) : s.Spares (s.dropTask t stage) := by
  have hended : s.Spares ((s.leaveLine t).setStage t .ended) :=
    (s.spares_leaveLine t).trans (spares_setStage _ t _)
  unfold dropTask
  dsimp only
  split
  · exact hended.trans (spares_letGo _ _)
  · exact (hended.trans (spares_letGo _ _)).trans (spares_giveUp _ _)
  · exact hended.trans (spares_giveUp _ _)
  · exact hended.trans (spares_unregister _ _)
  · exact hended.trans (spares_drop _ _)
  · exact hended

/-- A call that does not close the link in its turn registers its handler and otherwise spares the
reader. -/
theorem spares_taskTurn (t : Nat)
    (hmild : ∀ task, s.tasks[t]? = some task → task.isAborted ∨ s.closesAt task.stage = false) :
    (s.joined (s.turnEvents (.task t))).Spares (s.taskTurn t).1 := by
  unfold taskTurn turnEvents
  cases htask : s.tasks[t]? with
  | none =>
    dsimp only
    rw [htask, joined_of_nil s rfl]
    exact .refl s
  | some task =>
    have hmild := hmild task htask
    obtain ⟨label, stage, isAborted⟩ := task
    dsimp only at hmild ⊢
    rw [htask]
    dsimp only
    cases isAborted with
    | true =>
      rw [if_pos rfl, joined_of_nil s rfl]
      exact s.spares_dropTask t stage
    | false =>
      replace hmild := hmild.resolve_left (by simp)
      rw [if_neg (by simp), if_neg (by simp)]
      cases stage with
      | called call =>
        rw [joined_of_nil s rfl]
        exact s.spares_beginCall t call hmild
      | sending purpose step => exact s.spares_sendTurn t purpose step hmild
      | replying key bound use deadline =>
        rw [joined_of_nil s rfl]
        exact s.spares_replyTurn t key bound use deadline
      | closing =>
        rw [joined_of_nil s rfl]
        dsimp only
        split
        · exact ((s.spares_setWriter _).trans (spares_leaveLine _ t)).trans (spares_conclude _ t _)
        · exact .refl s
      | pulling key call =>
        rw [joined_of_nil s]
        · exact s.spares_pullTurn t key call
        · dsimp only [callEvents]
          split <;> rfl
      | watching key bound deadline =>
        rw [joined_of_nil s rfl]
        exact s.spares_watchTurn t key bound deadline
      | pausing period due =>
        rw [joined_of_nil s rfl]
        exact s.spares_pauseTurn t period due
      | ended =>
        rw [joined_of_nil s rfl]
        exact .refl s

/-! ### Actions -/

/-- Whether an action leaves the link open as far as it is up to it: nobody closes the link or gives
it up, and no write fails. Besides, nobody brings the handler of a reply that is there already. -/
def isSpared (s : Link) : Action → Bool
  | .call _ (.send _ (some _)) _ => false
  | .giveAway => false
  | .turn (.task t) => (s.tasks[t]?).all fun task => task.isAborted || !s.closesAt task.stage
  | _ => true

/-- What arrives with an action. -/
def Action.arrivals : Action → List Inbound
  | .arrive (.bytes []) => []
  | .arrive item => [item]
  | _ => []

/-- The link with what arrives and who is registered in an action. -/
def met (s : Link) (action : Action) : Link :=
  { s.joined (s.eventsAt action) with inbound := s.inbound ++ action.arrivals }

/-- The reader meets nothing new if nothing arrives and no handler is registered. -/
theorem met_of_nil {action : Action} (harrivals : action.arrivals = [])
    (hevents : Event.registeredIn (s.eventsAt action) = []) : s.met action = s := by
  rw [met, joined_of_nil s hevents, harrivals, List.append_nil]

/-- A link with an owner is not released. -/
theorem releaseUnused_of_isHeld (h : s.isHeld) : s.releaseUnused = s := by
  unfold releaseUnused
  rw [if_pos (by simp [h])]

/-- The link after a turn, before it is closed if nobody uses it any more. -/
def turned (s : Link) (actor : Actor) : Link :=
  let next :=
    match actor with
    | .reader => ({ s with ready := s.ready.erase .reader } : Link).readerTurn
    | .task key => ({ s with ready := s.ready.erase (.task key) } : Link).taskTurn key
  if next.2 then { next.1 with ready := actor :: next.1.ready.erase actor } else next.1

/-- A turn ends with the release of a link that nobody uses. -/
theorem turnOf_eq_release (actor : Actor) : s.turnOf actor = (s.turned actor).releaseUnused := by
  cases actor <;> rfl

/-- A call that can go on after its turn is put in front. -/
theorem spares_turned (t : Nat) :
    (({ s with ready := s.ready.erase (.task t) } : Link).taskTurn t).1.Spares
      (s.turned (.task t)) := by
  unfold turned
  dsimp only
  generalize ({ s with ready := s.ready.erase (.task t) } : Link).taskTurn t = next
  split
  · refine .of_same rfl rfl (fun h => ?_) rfl
    exact List.mem_cons_of_mem _ ((List.mem_erase_of_ne (by simp)).mpr h)
  · exact .refl next.1

/-- The call whose turn it is need not be woken any more. -/
theorem spares_begun (t : Nat) : (s.joined (s.turnEvents (.task t))).Spares
    (({ s with ready := s.ready.erase (.task t) } : Link).joined (s.turnEvents (.task t))) :=
  .of_same rfl rfl (fun h => (List.mem_erase_of_ne (by simp)).mpr h) rfl

/-- A turn of a call spares the reader but for the handler that it registers. -/
theorem spares_turnOf {t : Nat} (hheld : s.isHeld) (hspared : s.isSpared (.turn (.task t))) :
    (s.joined (s.turnEvents (.task t))).Spares (s.turnOf (.task t)) := by
  have hmild (task : Task) (htask : s.tasks[t]? = some task) :
      task.isAborted ∨ s.closesAt task.stage = false := by
    simpa [isSpared, htask] using hspared
  have hturned := ((s.spares_begun t).trans (spares_taskTurn _ t hmild)).trans (s.spares_turned t)
  rw [turnOf_eq_release, releaseUnused_of_isHeld _ (hturned.isHeld.trans hheld)]
  exact hturned

/-- A call is cancelled, and then the link is closed if nobody uses it any more. -/
theorem cancel_cases (label : Nat) :
    (s.cancel? label).getD s = s ∨
      ∃ next : Link, s.Spares next ∧ (s.cancel? label).getD s = next.releaseUnused := by
  unfold cancel?
  cases s.tasks.findIdx? fun task => task.label == some label && !task.stage.isEnded with
  | none => exact .inl rfl
  | some t =>
    rw [Option.bind_some]
    cases s.tasks[t]? with
    | none => exact .inl rfl
    | some task =>
      have hdropped := s.spares_dropTask t task.stage
      have hquiet : (s.dropTask t task.stage).Spares { s.dropTask t task.stage with
          ready := (s.dropTask t task.stage).ready.filter (· != Actor.task t) } :=
        .of_same rfl rfl (fun h => List.mem_filter.mpr ⟨h, by simp⟩) rfl
      exact .inr ⟨_, hdropped.trans hquiet, rfl⟩

/-- A call that is cancelled spares the reader of a link with an owner. -/
theorem spares_cancel (hheld : s.isHeld) (label : Nat) :
    s.Spares ((s.cancel? label).getD s) := by
  rcases s.cancel_cases label with hsame | ⟨next, hnext, hcancel⟩
  · rw [hsame]
    exact .refl s
  · rw [hcancel, releaseUnused_of_isHeld _ (hnext.isHeld.trans hheld)]
    exact hnext

/-- Allocating ids spares the reader. -/
theorem spares_nextIds (count : Nat) : s.Spares (s.nextIds count).2 := by
  rw [nextIds_eq]
  exact .of_same rfl rfl id rfl

/-- What arrives spares the reader once it has met it. -/
theorem spares_arrive (item : Inbound) : (s.met (.arrive item)).Spares (s.arrive item) := by
  have harrivals : Action.arrivals (.arrive item) = item.arrivals := by
    cases item with
    | bytes bytes => cases bytes <;> rfl
    | _ => rfl
  rw [met, joined_of_nil s rfl, harrivals]
  exact spares_of_wakes (s.wakes_arrive item)

/-- Whether the link may be closed after an action, as nobody may use it any more. -/
def Action.releases : Action → Bool
  | .cancel _ => true
  | .giveAway => true
  | .turn _ => true
  | _ => false

/-- What comes from outside and takes away nobody who uses the link spares the reader, except that
what arrives is put behind the rest. -/
theorem spares_outside {action : Action} (houtside : action.releases = false) :
    (s.met action).Spares (s.act action) := by
  cases action with
  | arrive item => exact s.spares_arrive item
  | setMode mode =>
    rw [met_of_nil s rfl rfl]
    exact (s.spares_setWriter _).trans (spares_of_wakes (s.wakes_setMode mode))
  | call label call hplain =>
    rw [met_of_nil s rfl]
    · exact s.spares_addTask ..
    · cases call with
      | send frame handler => rcases handler with - | other | other <;> rfl
      | _ => rfl
  | statement label frame id capacity bound =>
    rw [met_of_nil s rfl rfl]
    exact (s.spares_addChannel id capacity bound).trans (spares_addTask ..)
  | reply label frame kind =>
    rw [met_of_nil s rfl rfl]
    exact (s.spares_addReply kind).trans (spares_addTask ..)
  | pull label channel pull bound =>
    rw [met_of_nil s rfl rfl]
    dsimp only [act, startPull]
    split
    · exact .refl s
    · exact s.spares_addTask ..
  | watch label reply bound =>
    rw [met_of_nil s rfl rfl]
    exact s.spares_addTask ..
  | next channel =>
    rw [met_of_nil s rfl (by dsimp only [eventsAt]; split <;> rfl)]
    rw [act, next_snd]
    exact s.spares_changeChannel channel fun c _ => c.heeds_take
  | dropResponse channel =>
    rw [met_of_nil s rfl rfl]
    exact s.spares_drop channel
  | allocate count =>
    rw [met_of_nil s rfl rfl]
    exact s.spares_nextIds count
  | markOpen =>
    rw [met_of_nil s rfl rfl]
    exact s.spares_markOpen
  | pass gap =>
    rw [met_of_nil s rfl rfl]
    have hpassed : s.Spares { s with now := s.now + gap } := .of_same rfl rfl id rfl
    exact hpassed.trans (spares_of_wakes (s.wakes_pass gap))
  | _ => cases houtside

/-- In the turn of a call the reader meets the handler that the call registers. -/
theorem met_task (t : Nat) : s.met (.turn (.task t)) = s.joined (s.turnEvents (.task t)) := by
  rw [met, show Action.arrivals (.turn (.task t)) = [] from rfl, List.append_nil]
  rfl

/-- Whatever is done beside the reader of a link that its owner holds, what arrives is put behind
the rest, who is registered is put behind the others, and the reader is spared otherwise. -/
theorem spares_act (hheld : s.isHeld) {action : Action} (hspared : s.isSpared action)
    (hother : action ≠ .turn .reader) : (s.met action).Spares (s.act action) := by
  cases houtside : action.releases with
  | false => exact s.spares_outside houtside
  | true =>
    cases action with
    | cancel label =>
      rw [met_of_nil s rfl rfl]
      exact s.spares_cancel hheld label
    | giveAway => cases hspared
    | turn actor =>
      cases actor with
      | reader => exact absurd rfl hother
      | task t =>
        rw [met_task]
        exact s.spares_turnOf hheld hspared
    | _ => cases houtside

end Link

end BeeProtocol
