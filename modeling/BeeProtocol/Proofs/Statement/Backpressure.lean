import BeeProtocol.Proofs.Statement.Waking

/-!
# Slots of the row buffer

A slot is free, taken by a buffered row, or given to a row that waits to be stored. Every action
moves a slot from one of these to another, so together they are the capacity at all times. A handler
that waits is woken by whatever could let it go on, so it waits only while the buffer is full.
-/

namespace BeeProtocol

/-- A buffer holds at least one row and never more than can be asked for. -/
theorem Config.clampRows_bounds (capacity : Nat) :
    1 ≤ clampRows capacity ∧ clampRows capacity ≤ maxRowCapacity := by
  have hlimit : 1 ≤ maxRowCapacity := by decide
  exact ⟨Nat.le_max_left _ _, Nat.max_le.mpr ⟨hlimit, Nat.min_le_right _ _⟩⟩

namespace Signal

/-- An accepted row has the columns of the header, and a value for each of them. -/
theorem of_mem_accepted {log : List Signal} {row : Row} (h : row ∈ accepted log) :
    headerOf log = some row.columns ∧ row.columns.length = row.values.length := by
  unfold accepted at h
  split at h
  · rename_i header hheader
    obtain ⟨signal, -, hrow⟩ := List.mem_filterMap.mp h
    unfold rowUnder? at hrow
    split at hrow
    · split at hrow
      · rename_i hlength
        obtain rfl := Option.some.inj hrow
        exact ⟨hheader, hlength⟩
      · simp at hrow
    · simp at hrow
  · simp at h

end Signal

namespace Channel

/-- The slots that were given to the handler and not used yet. -/
def granted (c : Channel) : Nat := if c.slot = .granted then 1 else 0

/-- Every slot is free, taken by a buffered row, or given to the handler, which does not wait while
one is free. -/
structure Accounts (capacity : Nat) (c : Channel) : Prop where
  /-- Free slots, buffered rows and the slot of the handler make up the capacity. -/
  slots : c.free + c.rows.length + c.granted = capacity
  /-- The handler waits only while no slot is free. -/
  scarce : c.slot = .waiting → c.free = 0

variable {c : Channel} {capacity : Nat}

/-- The slots of a fresh channel are all free. -/
theorem accounts_fresh (id : UInt32) (capacity : Nat) (bound : Duration) :
    (fresh id capacity bound).Accounts (Config.clampRows capacity) where
  slots := rfl
  scarce := by simp [fresh]

namespace Accounts

/-- What touches neither the rows nor the slots keeps the account. -/
theorem of_slots (h : c.Accounts capacity) {c' : Channel} (hfree : c'.free = c.free)
    (hrows : c'.rows = c.rows) (hslot : c'.slot = c.slot) : c'.Accounts capacity := by
  constructor
  · rw [granted, hfree, hrows, hslot]
    exact h.slots
  · rw [hfree, hslot]
    exact h.scarce

/-- The end of a statement takes no slot. -/
theorem finish (h : c.Accounts capacity) (failure : Option ClientError) :
    (c.finish failure).Accounts capacity := by
  unfold Channel.finish
  split
  · exact h
  · exact h.of_slots rfl rfl rfl

/-- A payload that is heard takes no slot. -/
theorem receive (h : c.Accounts capacity) (payload : List UInt8) :
    (c.receive payload).1.Accounts capacity := by
  rw [receive_eq]
  cases Signal.ofPayload payload with
  | decoded event =>
    cases event with
    | columns header =>
      dsimp only [hear, apply, takeHeader]
      split
      · exact h.of_slots rfl rfl rfl
      · exact h
    | row values => exact h
    | abort => exact h.finish _
    | error reason => exact h.finish _
  | malformed reason => exact h.finish _
  | abandoned reason => exact h.finish _

/-- A row that is stored takes a slot; one that is discarded gives back the slot it was given. -/
theorem store (h : c.Accounts capacity) (row : Row) : (c.store row).1.Accounts capacity := by
  have hslots := h.slots
  unfold granted at hslots
  unfold Channel.store
  cases hdropped : c.isDropped with
  | true =>
    cases hslot : c.slot with
    | granted =>
      rw [hslot] at hslots
      refine ⟨?_, by simp⟩
      simp only [granted, reduceCtorEq, if_false]
      simp only [if_true] at hslots
      omega
    | none => exact h.of_slots rfl rfl hslot.symm
    | waiting =>
      rw [hslot] at hslots
      exact ⟨by simpa [granted] using hslots, by simp⟩
  | false =>
    cases hslot : c.slot with
    | granted =>
      rw [hslot] at hslots
      refine ⟨?_, by simp [push]⟩
      simp only [granted, push, reduceCtorEq, if_false, List.length_append, List.length_singleton]
      simp only [if_true] at hslots
      omega
    | waiting => exact h
    | none =>
      rw [hslot] at hslots
      simp only [reduceCtorEq, if_false] at hslots
      dsimp only
      split
      · rename_i hfull
        exact ⟨by simpa [granted] using hslots, fun _ => hfull⟩
      · refine ⟨?_, by simp [push]⟩
        simp only [granted, push, reduceCtorEq, if_false, List.length_append,
          List.length_singleton]
        omega

/-- Cutting off the decoding frees the slot that was granted. -/
theorem cutOff (h : c.Accounts capacity) : c.cutOff.Accounts capacity := by
  have hslots := h.slots
  unfold granted at hslots
  unfold Channel.cutOff
  split
  · rename_i hslot
    rw [hslot] at hslots
    simp only [if_true] at hslots
    refine ⟨?_, by simp⟩
    simp only [granted, reduceCtorEq, if_false]
    omega
  · rename_i hslot
    rw [if_neg hslot] at hslots
    exact ⟨by simpa [granted] using hslots, by simp⟩

/-- Letting go of the handler frees its slot. -/
theorem letGo (h : c.Accounts capacity) : c.letGo.Accounts capacity := h.cutOff.finish _

/-- Dropping the response takes no slot. -/
theorem drop (h : c.Accounts capacity) : c.drop.Accounts capacity := h.of_slots rfl rfl rfl

/-- Taking a row frees its slot, or hands it to the handler that waits. -/
theorem take_row (h : c.Accounts capacity) {row : Row} {rows : List Row}
    (hrows : c.rows = row :: rows) : ({ c with rows := rows }.release).Accounts capacity := by
  have hslots := h.slots
  rw [hrows, List.length_cons] at hslots
  unfold granted at hslots
  unfold release
  split
  · rename_i hslot
    dsimp only at hslot
    rw [if_neg (by simp [hslot])] at hslots
    refine ⟨?_, by simp⟩
    simp only [granted, if_true]
    omega
  · rename_i hslot
    refine ⟨?_, fun hwaiting => absurd hwaiting hslot⟩
    simp only [granted]
    omega

/-- A row that is taken frees its slot, or hands it to the row that waits. -/
theorem take (h : c.Accounts capacity) : c.take.2.Accounts capacity := by
  rcases c.take_eq with ⟨reason, -, htake⟩ | ⟨-, -, htake⟩ | ⟨row, rows, -, hrows, htake⟩
  · rw [htake]
    exact h
  · rw [htake]
    exact h
  · rw [htake]
    exact h.take_row hrows

/-- The turn of a call accounts for every row that it takes. -/
theorem turn (h : c.Accounts capacity) (call : PullCall) (now : Nat) :
    (call.turn now c).2.Accounts capacity := by
  rcases call.turn_cases now c with hpasses | ⟨htakes, hfailure, row, rows, hrows⟩
  · rw [hpasses.1]
    exact h
  · rw [PullCall.turn_takes htakes now hfailure hrows]
    exact h.take_row hrows

end Accounts

end Channel

namespace StatementSession

variable {s : StatementSession} {h : StatementHistory} {capacity : Nat}

/-! ### Every action keeps the account -/

/-- The slots of a channel are accounted for after every action. -/
theorem accounts_act (hs : s.channel.Accounts capacity) (action : Action) :
    (s.act action).channel.Accounts capacity := by
  rw [(s.act_fields action).1]
  cases action with
  | feed payload => exact hs
  | withdraw => exact hs
  | pass gap => exact hs
  | abandon reason =>
    dsimp only [channelAfter]
    split
    · exact hs.finish _
    · exact hs
  | cutOff =>
    dsimp only [channelAfter]
    split
    · exact hs
    · exact hs.cutOff
  | dropHandler =>
    dsimp only [channelAfter]
    split
    · exact hs.letGo
    · exact hs
  | perform label step =>
    dsimp only [channelAfter]
    split
    · exact hs.take
    · exact hs.drop
    · exact hs
  | cancel label =>
    dsimp only [channelAfter]
    split
    · exact hs.drop
    · exact hs
  | turn who =>
    cases who with
    | handler =>
      dsimp only [channelAfter]
      split
      · exact hs
      · exact hs.receive _
      · exact hs.store _
    | caller =>
      dsimp only [channelAfter]
      split
      · rename_i label call _
        have hturn := hs.turn call s.now
        split
        · rename_i result c heq
          rw [heq] at hturn
          split
          · exact hturn.drop
          · exact hturn
        · rename_i progress c _ heq
          rw [heq] at hturn
          exact hturn
      · exact hs

/-! ### What is known in every run -/

/-- The slots of a row buffer are accounted for, every buffered row fits the header, and when nobody
can go on, a payload in the handler's hands is a row for which the full buffer has no slot. -/
structure Backpressure (capacity : Nat) (s : StatementSession) : Prop where
  /-- Free slots, buffered rows and the slot of the handler make up the capacity. -/
  accounted :
    s.channel.free + s.channel.rows.length + s.channel.granted = Config.clampRows capacity
  /-- No more rows are buffered than the capacity says. -/
  bounded : s.channel.rows.length ≤ Config.clampRows capacity
  /-- There is room for every slot that is given back. -/
  returns : s.channel.rows ≠ [] ∨ s.channel.slot = .granted →
    s.channel.free + 1 ≤ Config.maxRowCapacity
  /-- Every buffered row has a value for each column of the header. -/
  fits : s.channel.isDropped = false → ∀ row ∈ s.channel.rows,
    s.channel.header = some row.columns ∧ row.columns.length = row.values.length
  /-- When nobody can go on, the handler has a row for which the full buffer has no slot. -/
  pauses : s.ready = [] → s.intake ≠ .idle → ∃ row, s.intake = .storing row ∧
    s.channel.isDropped = false ∧ s.channel.header = some row.columns ∧
    row.columns.length = row.values.length ∧ s.channel.rows.length = Config.clampRows capacity

/-- As long as the response is kept, every row on its way to the caller fits the header. -/
theorem Tracks.fits (hs : s.Tracks h) (hkept : s.channel.isDropped = false) {row : Row}
    (hrow : row ∈ s.channel.rows ∨ row ∈ s.intake.rows) :
    s.channel.header = some row.columns ∧ row.columns.length = row.values.length := by
  rw [hs.reflects.header_eq]
  apply Signal.of_mem_accepted
  rw [← hs.rows hkept, List.append_assoc]
  exact List.mem_append_right _ (List.mem_append.mpr hrow)

/-- What a statement owes to its slots, to its history and to the sides it has woken. -/
theorem backpressure_of_accounts (hslots : s.channel.Accounts (Config.clampRows capacity))
    (hs : s.Tracks h) (halert : s.Alert) : s.Backpressure capacity where
  accounted := hslots.slots
  bounded := by
    have haccount := hslots.slots
    omega
  returns hback := by
    have haccount := hslots.slots
    have hlimit := (Config.clampRows_bounds capacity).2
    unfold Channel.granted at haccount
    rcases hback with hrows | hgranted
    · have hlength := List.length_pos_iff.mpr hrows
      omega
    · rw [if_pos hgranted] at haccount
      omega
  fits hkept row hrow := hs.fits hkept (.inl hrow)
  pauses hrest hbusy := by
    have hblocked : s.Blocked .handler :=
      (halert .handler).resolve_left (by simp [hrest])
    unfold Blocked at hblocked
    cases hhand : s.intake with
    | idle => exact absurd hhand hbusy
    | decoding payload => simp [hhand] at hblocked
    | storing row =>
      rw [hhand] at hblocked
      obtain ⟨hwaits, hkept⟩ := hblocked
      have hrow : row ∈ s.intake.rows := by simp [hhand, Intake.rows]
      have hfits := hs.fits hkept (.inr hrow)
      have haccount := hslots.slots
      have hfull := hslots.scarce hwaits
      rw [Channel.granted, if_neg (by simp [hwaits])] at haccount
      exact ⟨row, rfl, hkept, hfits.1, hfits.2, by omega⟩

/-- In every run, whatever capacity was asked for, the slots of the row buffer are accounted for and
the handler is held up by a full buffer only. -/
theorem backpressure_runOf (id : UInt32) (capacity : Nat) (bound : Duration)
    (actions : List Action) : (runOf id capacity bound actions).1.Backpressure capacity := by
  have hslots : (runOf id capacity bound actions).1.channel.Accounts (Config.clampRows capacity) :=
    follow_invariant (P := fun s _ => s.channel.Accounts (Config.clampRows capacity))
      (fun _ _ action hs => accounts_act hs action)
      (Channel.accounts_fresh id capacity bound) actions
  have htracks : (runOf id capacity bound actions).1.Tracks (runOf id capacity bound actions).2 :=
    follow_invariant (fun _ _ action hs => hs.act action) (.fresh id capacity bound) actions
  exact backpressure_of_accounts hslots htracks (alert_runOf id capacity bound actions)

end StatementSession

end BeeProtocol
