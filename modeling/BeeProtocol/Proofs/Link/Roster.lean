import BeeProtocol.Link.Session
import BeeProtocol.Proofs.Statement.Channel
import Mathlib.Data.List.Basic

/-!
# Rosters

The roster of a link is what matters to its handlers and to the calls that wait for them: where the
calls stand, the line for the writer, the handlers that wait for frames, the statements and the
single replies themselves, and what the reader does. Waking somebody, the writer and the results of
calls do not show in it.
-/

namespace BeeProtocol

/-- Whether the reader has ended. -/
def ReaderStage.isStopped : ReaderStage → Bool
  | stopped => true
  | _ => false

/-- A call that moves to another stage is counted there. -/
theorem Stage.countP_set {stages : List Stage} {t : Nat} {stage : Stage}
    (h : stages[t]? = some stage) (new : Stage) (test : Stage → Bool) :
    (stages.set t new).countP test + (test stage).toNat =
      stages.countP test + (test new).toNat := by
  obtain ⟨ht, hstage⟩ := List.getElem?_eq_some_iff.mp h
  have hcount := List.countP_set (p := test) (l := stages) (i := t) (a := new) ht
  have hpos : test stage = true → 0 < stages.countP test := fun htest =>
    List.countP_pos_iff.mpr ⟨stage, List.mem_of_getElem? h, htest⟩
  rw [hstage] at hcount
  rw [hcount]
  cases htest : test stage with
  | true =>
    have := hpos htest
    cases test new <;> simp <;> omega
  | false => cases test new <;> simp

/-- Who stands where on a link, and what the statements and the replies have come to. -/
structure Roster where
  /-- The stages of the calls, by key. -/
  stages : List Stage
  /-- The calls that want the writer; the first one has it. -/
  line : List Nat
  /-- The handlers that wait for frames. -/
  pending : List Handler
  /-- What the statements have come to. -/
  channels : List Channel
  /-- What the replies have come to. -/
  replies : List ReplyHandler
  /-- Whether the link is closed. -/
  isClosed : Bool
  /-- What the reader is doing. -/
  reading : ReaderStage
  /-- Whether the reader is to end. -/
  isAborted : Bool

namespace Roster

/-- Changes the channel of a statement. -/
def change (r : Roster) (key : Nat) (change : Channel → Channel) : Roster :=
  { r with channels := r.channels.modify key change }

/-- Changes the handler of a single reply. -/
def changeReply (r : Roster) (key : Nat) (change : ReplyHandler → ReplyHandler) : Roster :=
  { r with replies := r.replies.modify key change }

/-- Lets go of a handler, which fails what it stands for. -/
def letGo (r : Roster) : Handler → Roster
  | .statement key => r.change key fun c => c.finish (some .connectionClosed)
  | .reply key => r.changeReply key fun h => h.abandon .connectionClosed

/-- Takes a handler off those that wait. -/
def unregister (r : Roster) (handler : Handler) : Roster :=
  { r with pending := r.pending.filter (· != handler) }

/-- What a call gives up that ends before its purpose is reached. -/
def giveUp (r : Roster) : Purpose → Roster
  | .reply key _ _ => r.unregister (.reply key)
  | .statement key => r.change key Channel.drop
  | _ => r

/-- Closes the link and lets go of every handler that waits. -/
def shut (r : Roster) : Roster :=
  if r.isClosed then r
  else r.pending.foldl letGo { r with isClosed := true, pending := [] }

/-- Stops the reader at its next turn. -/
def stop (r : Roster) : Roster :=
  match r.reading with
  | .stopped => r
  | _ => { r with isAborted := true }

/-- Moves a call to a stage. -/
def move (r : Roster) (t : Nat) (stage : Stage) : Roster :=
  { r with stages := r.stages.set t stage }

/-- A call leaves the line for the writer. -/
def leave (r : Roster) (t : Nat) : Roster := { r with line := r.line.filter (· != t) }

/-- A change of a channel that there is replaces it. -/
theorem change_eq {r : Roster} {key : Nat} {c : Channel} (h : r.channels[key]? = some c)
    (change : Channel → Channel) :
    r.change key change = { r with channels := r.channels.set key (change c) } := by
  rw [Roster.change, List.modify_eq_set_getElem?, h]
  rfl

/-- What holds of all channels, and is kept by the change of one, holds of all afterwards. -/
theorem forall_change {r : Roster} {P : Channel → Prop} (h : ∀ c ∈ r.channels, P c) (key : Nat)
    {change : Channel → Channel}
    (hchange : ∀ c, r.channels[key]? = some c → P c → P (change c)) :
    ∀ c ∈ (r.change key change).channels, P c := by
  intro c hmem
  obtain ⟨other, hc⟩ := List.mem_iff_getElem?.mp hmem
  rw [Roster.change, List.getElem?_modify] at hc
  obtain ⟨before, hbefore, rfl⟩ := Option.map_eq_some_iff.mp hc
  have hholds := h before (List.mem_of_getElem? hbefore)
  split
  · rename_i hkey
    exact hchange before (hkey ▸ hbefore) hholds
  · exact hholds

/-- Letting go of the handler of a statement that has ended changes nothing. -/
theorem letGo_of_isDone {r : Roster} {key : Nat} (h : (r.channels[key]?).any (·.isDone)) :
    r.letGo (.statement key) = r := by
  cases hchannel : r.channels[key]? with
  | none =>
    rw [hchannel] at h
    cases h
  | some c =>
    rw [hchannel] at h
    have hsame : c.finish (some .connectionClosed) = c := if_pos h
    obtain ⟨hkey, hget⟩ := List.getElem?_eq_some_iff.mp hchannel
    rw [letGo, change_eq hchannel, hsame, ← hget, List.set_getElem_self]

/-! ### What closing leaves alone -/

/-- Letting go of handlers does not depend on the line. -/
theorem foldl_letGo_line (handlers : List Handler) (r : Roster) (line : List Nat) :
    handlers.foldl letGo { r with line := line } =
      { handlers.foldl letGo r with line := line } := by
  induction handlers generalizing r with
  | nil => rfl
  | cons handler handlers ih =>
    cases handler with
    | statement key => exact ih (r.letGo (.statement key))
    | reply key => exact ih (r.letGo (.reply key))

/-- Letting go of handlers changes only the statements and the replies. -/
theorem foldl_letGo_eq (handlers : List Handler) (r : Roster) :
    ∃ channels replies,
      handlers.foldl letGo r = { r with channels := channels, replies := replies } := by
  induction handlers generalizing r with
  | nil => exact ⟨r.channels, r.replies, rfl⟩
  | cons handler handlers ih =>
    obtain ⟨channels, replies, hfold⟩ := ih (r.letGo handler)
    refine ⟨channels, replies, ?_⟩
    rw [List.foldl_cons, hfold]
    cases handler <;> rfl

/-- What holds before closing and of the link with its queue emptied, and is kept by letting go of a
handler, holds after closing. -/
theorem shut_invariant {P : Roster → Prop} {r : Roster} (hr : P r)
    (hempty : P { r with isClosed := true, pending := [] })
    (hletGo : ∀ r handler, P r → P (r.letGo handler)) : P r.shut := by
  have hfold (handlers : List Handler) (r : Roster) (h : P r) : P (handlers.foldl letGo r) := by
    induction handlers generalizing r with
    | nil => exact h
    | cons handler handlers ih => exact ih (r.letGo handler) (hletGo r handler h)
  unfold shut
  split
  · exact hr
  · exact hfold r.pending _ hempty

/-- What holds of all channels, and is kept as a statement is lost, holds of all after closing. -/
theorem forall_shut {r : Roster} {P : Channel → Prop} (h : ∀ c ∈ r.channels, P c)
    (hfinish : ∀ c : Channel, P c → P (c.finish (some .connectionClosed))) :
    ∀ c ∈ r.shut.channels, P c := by
  refine shut_invariant (P := fun r => ∀ c ∈ r.channels, P c) h h ?_
  rintro r (key | key) h
  · exact forall_change h key fun c _ => hfinish c
  · exact h

/-- The line has no part in the closing of a roster. -/
theorem shut_line (r : Roster) (line : List Nat) :
    ({ r with line := line } : Roster).shut = { r.shut with line := line } := by
  unfold shut
  dsimp only
  split
  · rfl
  · exact foldl_letGo_line r.pending { r with isClosed := true, pending := [] } line

/-- Closing changes neither the calls nor the line nor the reader. -/
theorem shut_eq (r : Roster) :
    ∃ pending channels replies, r.shut =
      { r with
        isClosed := true
        pending := pending
        channels := channels
        replies := replies } := by
  unfold shut
  split
  · rename_i hclosed
    refine ⟨r.pending, r.channels, r.replies, ?_⟩
    rw [← hclosed]
  · obtain ⟨channels, replies, hfold⟩ :=
      foldl_letGo_eq r.pending { r with isClosed := true, pending := [] }
    exact ⟨[], channels, replies, hfold⟩

/-- Closing moves no call. -/
@[simp] theorem shut_stages (r : Roster) : r.shut.stages = r.stages := by
  obtain ⟨pending, channels, replies, hshut⟩ := r.shut_eq
  rw [hshut]

/-- Closing leaves the reader where it is. -/
@[simp] theorem shut_reading (r : Roster) : r.shut.reading = r.reading := by
  obtain ⟨pending, channels, replies, hshut⟩ := r.shut_eq
  rw [hshut]

/-- Closing does not tell the reader to end. -/
@[simp] theorem shut_isAborted (r : Roster) : r.shut.isAborted = r.isAborted := by
  obtain ⟨pending, channels, replies, hshut⟩ := r.shut_eq
  rw [hshut]

/-- A roster that is closed is closed. -/
@[simp] theorem shut_isClosed (r : Roster) : r.shut.isClosed = true := by
  obtain ⟨pending, channels, replies, hshut⟩ := r.shut_eq
  rw [hshut]

/-- Closing leaves the line. -/
theorem shut_line_eq (r : Roster) : r.shut.line = r.line := by
  obtain ⟨pending, channels, replies, hshut⟩ := r.shut_eq
  rw [hshut]

/-- Closing leaves nobody waiting who did not wait before. -/
theorem shut_pending_sublist (r : Roster) : r.shut.pending.Sublist r.pending := by
  unfold shut
  split
  · exact .refl _
  · obtain ⟨channels, replies, hfold⟩ :=
      foldl_letGo_eq r.pending { r with isClosed := true, pending := [] }
    rw [hfold]
    exact List.nil_sublist _

/-- A reader that is stopped has ended or ends at its next turn. -/
theorem stop_eq (r : Roster) :
    ∃ isAborted, r.stop = { r with isAborted := isAborted } ∧
      (r.reading.isStopped ∨ isAborted = true) := by
  unfold stop
  split
  · rename_i hstopped
    exact ⟨r.isAborted, rfl, .inl (by rw [hstopped]; rfl)⟩
  · exact ⟨true, rfl, .inr rfl⟩

/-- Stopping the reader moves no call. -/
@[simp] theorem stop_stages (r : Roster) : r.stop.stages = r.stages := by
  obtain ⟨isAborted, hstop, -⟩ := r.stop_eq
  rw [hstop]

/-- Letting go of a handler moves no call. -/
@[simp] theorem letGo_stages (r : Roster) (handler : Handler) :
    (r.letGo handler).stages = r.stages := by cases handler <;> rfl

/-- Giving up a purpose moves no call. -/
@[simp] theorem giveUp_stages (r : Roster) (purpose : Purpose) :
    (r.giveUp purpose).stages = r.stages := by cases purpose <;> rfl

/-- The line has no part in the stopping of the reader. -/
theorem stop_line (r : Roster) (line : List Nat) :
    ({ r with line := line } : Roster).stop = { r.stop with line := line } := by
  unfold stop
  dsimp only
  split <;> rfl

end Roster

namespace Link

/-- The roster of a link. -/
def roster (s : Link) : Roster where
  stages := s.tasks.map (·.stage)
  line := s.line
  pending := s.pending
  channels := s.channels
  replies := s.replies
  isClosed := s.isClosed
  reading := s.reader.stage
  isAborted := s.reader.isAborted

/-- The roster shows the stage of every task. -/
theorem stage_of_task {s : Link} {t : Nat} {task : Task} (h : s.tasks[t]? = some task) :
    s.roster.stages[t]? = some task.stage := by
  simp [roster, h]

end Link

end BeeProtocol
