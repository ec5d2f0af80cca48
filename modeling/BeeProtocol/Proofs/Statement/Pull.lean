import BeeProtocol.Proofs.Statement.Channel

/-!
# What calls take

A turn of a call takes the oldest row or leaves the channel as it is. It says that there are no more
rows only if the buffer is empty after an end without a failure.
-/

namespace BeeProtocol

/-- The rows that a call has taken so far. -/
def Pull.taken : Pull → List Row
  | collect taken | stream taken => taken
  | _ => []

/-- Whether a call asks for rows, and not only about them. -/
def Pull.takesRows : Pull → Bool
  | columns | hasNext => false
  | _ => true

/-- The rows that a call hands over at its end. -/
def PullResult.rows : PullResult → List Row
  | nextRow (some row) => [row]
  | collected rows => rows
  | streamed rows _ => rows
  | _ => []

/-- Whether a result says that there are no more rows. -/
def PullResult.saysNoMore : PullResult → Bool
  | hasNext false | nextRow none | collected _ | streamed _ none => true
  | _ => false

/-- The rows that a call holds after its turn. -/
def PullProgress.rows : PullProgress → List Row
  | again call => call.pull.taken
  | asleep => []
  | finished result => result.rows

namespace PullCall

/-- The rows that a turn of a call takes from the channel. -/
def gained (call : PullCall) (now : Nat) (c : Channel) : List Row :=
  (call.turn now c).1.rows.drop call.pull.taken.length

/-- A turn that leaves the channel alone: the call waits or ends, with no more rows than it had. -/
def Passes (call : PullCall) (now : Nat) (c : Channel) : Prop :=
  (call.turn now c).2 = c ∧
    ((call.turn now c).1 = .asleep ∨
      ∃ result, (call.turn now c).1 = .finished result ∧
        result.rows.length ≤ call.pull.taken.length ∧
        (result.saysNoMore →
          result.rows = call.pull.taken ∧ c.isDone ∧ c.failure = none ∧ c.rows = []))

/-- It is known that there is no other row only after an end without a failure. -/
theorem of_rowKnown?_false {call : PullCall} {now : Nat} {c : Channel}
    (h : call.rowKnown? now c = some (.ok false)) :
    c.isDone ∧ c.failure = none ∧ c.rows = [] := by
  unfold rowKnown? Channel.rowReady? at h
  cases hfailure : c.failure with
  | some reason => simp [hfailure] at h
  | none =>
    cases hrows : c.rows with
    | cons row rows => simp [hfailure, hrows] at h
    | nil =>
      cases hdone : c.isDone with
      | true => exact ⟨rfl, rfl, rfl⟩
      | false => cases hdue : call.isDue now <;> simp [hfailure, hrows, hdone, hdue] at h

/-- It is known that there is another row only if one is buffered. -/
theorem of_rowKnown?_true {call : PullCall} {now : Nat} {c : Channel}
    (h : call.rowKnown? now c = some (.ok true)) : c.failure = none ∧ c.rows ≠ [] := by
  unfold rowKnown? Channel.rowReady? at h
  cases hfailure : c.failure with
  | some reason => simp [hfailure] at h
  | none =>
    cases hrows : c.rows with
    | cons row rows => exact ⟨rfl, by simp⟩
    | nil =>
      cases hdone : c.isDone <;> cases hdue : call.isDue now <;>
        simp [hfailure, hrows, hdone, hdue] at h

/-- A call for rows asks what is known about the next one. -/
theorem turn_of_takesRows {call : PullCall} (h : call.pull.takesRows) (now : Nat) (c : Channel) :
    call.turn now c =
      match call.rowKnown? now c with
      | none => (.asleep, c)
      | some (.ok true) => call.takeRow now c
      | some (.ok false) => (call.exhausted, c)
      | some (.error reason) => (call.fail reason, c) := by
  unfold turn
  split
  · simp_all [Pull.takesRows]
  · simp_all [Pull.takesRows]
  · rfl

/-- A call for rows takes the oldest row, unless there is a failure. -/
theorem turn_takes {call : PullCall} (h : call.pull.takesRows) (now : Nat) {c : Channel}
    (hfailure : c.failure = none) {row : Row} {rows : List Row} (hrows : c.rows = row :: rows) :
    call.turn now c = (call.took now row, { c with rows := rows }.release) := by
  have hknown : call.rowKnown? now c = some (.ok true) := by
    simp [rowKnown?, Channel.rowReady?, hfailure, hrows]
  have htake : c.take = (.ok row, { c with rows := rows }.release) := by
    simp [Channel.take, hfailure, hrows]
  rw [turn_of_takesRows h, hknown]
  simp [takeRow, htake]

/-- The rows of a call that fails are not more than it had. -/
theorem fail_eq (call : PullCall) (reason : ClientError) :
    ∃ result, call.fail reason = .finished result ∧
      result.rows.length ≤ call.pull.taken.length ∧ result.saysNoMore = false := by
  unfold fail
  split
  · rename_i taken hpull
    exact ⟨_, rfl, by simp [PullResult.rows, hpull, Pull.taken], rfl⟩
  · exact ⟨_, rfl, by simp [PullResult.rows], rfl⟩

/-- A call that finds no more rows hands over those that it had. -/
theorem exhausted_eq (call : PullCall) :
    ∃ result, call.exhausted = .finished result ∧ result.rows = call.pull.taken := by
  unfold exhausted
  split <;> rename_i hpull
  · exact ⟨_, rfl, by simp [PullResult.rows, hpull, Pull.taken]⟩
  · exact ⟨_, rfl, by simp [PullResult.rows, hpull, Pull.taken]⟩
  · exact ⟨_, rfl, by simp [PullResult.rows, hpull, Pull.taken]⟩
  · refine ⟨_, rfl, ?_⟩
    cases hcall : call.pull <;> simp_all [PullResult.rows, Pull.taken]

/-- A call that asks for no row, or has none to take, leaves the channel alone. -/
theorem turn_passes {call : PullCall} (now : Nat) {c : Channel}
    (h : call.pull.takesRows = false ∨ c.failure ≠ none ∨ c.rows = []) :
    call.Passes now c := by
  cases htakes : call.pull.takesRows with
  | true =>
    have hblocked : c.failure ≠ none ∨ c.rows = [] := by simpa [htakes] using h
    unfold Passes
    rw [turn_of_takesRows htakes]
    cases hknown : call.rowKnown? now c with
    | none => exact ⟨rfl, .inl rfl⟩
    | some known =>
      rcases known with reason | _ | _
      · obtain ⟨result, hresult, hlength, hnone⟩ := call.fail_eq reason
        exact ⟨rfl, .inr ⟨result, hresult, hlength, by simp [hnone]⟩⟩
      · obtain ⟨result, hresult, hrows⟩ := call.exhausted_eq
        refine ⟨rfl, .inr ⟨result, hresult, by simp [hrows], fun _ => ⟨hrows, ?_⟩⟩⟩
        exact of_rowKnown?_false hknown
      · obtain ⟨hnone, hsome⟩ := of_rowKnown?_true hknown
        exact absurd hblocked (by simp [hnone, hsome])
  | false =>
    unfold Passes turn
    cases hpull : call.pull with
    | columns =>
      dsimp only
      cases hknown : call.headerKnown? now c with
      | none => exact ⟨rfl, .inl rfl⟩
      | some known =>
        cases known with
        | ok header => exact ⟨rfl, .inr ⟨_, rfl, Nat.zero_le _, by simp [PullResult.saysNoMore]⟩⟩
        | error reason => exact ⟨rfl, .inr ⟨_, rfl, Nat.zero_le _, by simp [PullResult.saysNoMore]⟩⟩
    | hasNext =>
      dsimp only
      cases hknown : call.rowKnown? now c with
      | none => exact ⟨rfl, .inl rfl⟩
      | some known =>
        rcases known with reason | _ | _
        · exact ⟨rfl, .inr ⟨_, rfl, Nat.zero_le _, by simp [PullResult.saysNoMore]⟩⟩
        · exact ⟨rfl, .inr ⟨_, rfl, Nat.zero_le _, fun _ => ⟨rfl, of_rowKnown?_false hknown⟩⟩⟩
        · exact ⟨rfl, .inr ⟨_, rfl, Nat.zero_le _, by simp [PullResult.saysNoMore]⟩⟩
    | nextRow => simp [hpull, Pull.takesRows] at htakes
    | collect taken => simp [hpull, Pull.takesRows] at htakes
    | stream taken => simp [hpull, Pull.takesRows] at htakes

/-- A turn takes the oldest row or leaves the channel alone. -/
theorem turn_cases (call : PullCall) (now : Nat) (c : Channel) :
    call.Passes now c ∨
      (call.pull.takesRows = true ∧ c.failure = none ∧ ∃ row rows, c.rows = row :: rows) := by
  by_cases hpasses : call.pull.takesRows = false ∨ c.failure ≠ none ∨ c.rows = []
  · exact .inl (turn_passes now hpasses)
  · push Not at hpasses
    obtain ⟨htakes, hfailure, hrows⟩ := hpasses
    exact .inr ⟨by simpa using htakes, hfailure, List.exists_cons_of_ne_nil hrows⟩

/-- The turn of a call leaves whether the response was dropped. -/
@[simp] theorem turn_isDropped (call : PullCall) (now : Nat) (c : Channel) :
    (call.turn now c).2.isDropped = c.isDropped := by
  rcases call.turn_cases now c with hpasses | ⟨htakes, hfailure, row, rows, hrows⟩
  · rw [hpasses.1]
  · rw [turn_takes htakes now hfailure hrows, Channel.release_isDropped]

/-- A turn gains the row that it takes and nothing else. -/
theorem gained_of_takes {call : PullCall} (h : call.pull.takesRows) (now : Nat) {c : Channel}
    (hfailure : c.failure = none) {row : Row} {rows : List Row} (hrows : c.rows = row :: rows) :
    call.gained now c = [row] := by
  unfold gained
  rw [turn_takes h now hfailure hrows]
  unfold took
  split <;> simp_all [PullProgress.rows, PullResult.rows, Pull.taken, start]

/-- A call that passes takes no rows. -/
theorem gained_of_passes {call : PullCall} {now : Nat} {c : Channel} (h : call.Passes now c) :
    call.gained now c = [] := by
  unfold gained
  rcases h.2 with hasleep | ⟨result, hresult, hlength, -⟩
  · simp [hasleep, PullProgress.rows]
  · rw [hresult]
    exact List.drop_eq_nil_of_le hlength

/-- The turn of a call leaves the bound of the waits. -/
@[simp] theorem turn_bound (call : PullCall) (now : Nat) (c : Channel) :
    (call.turn now c).2.bound = c.bound := by
  rcases call.turn_cases now c with hpasses | ⟨htakes, hfailure, row, rows, hrows⟩
  · rw [hpasses.1]
  · rw [turn_takes htakes now hfailure hrows, Channel.release_bound]

/-- The rows that a turn takes come off the front of the buffer. -/
theorem turn_rows (call : PullCall) (now : Nat) (c : Channel) :
    call.gained now c ++ (call.turn now c).2.rows = c.rows := by
  rcases call.turn_cases now c with hpasses | ⟨htakes, hfailure, row, rows, hrows⟩
  · rw [gained_of_passes hpasses, hpasses.1, List.nil_append]
  · rw [gained_of_takes htakes now hfailure hrows, turn_takes htakes now hfailure hrows, hrows,
      Channel.release_rows]
    rfl

end PullCall

/-- A row that is taken comes off the front of the buffer. -/
theorem Channel.take_rows (c : Channel) : c.take.1.toOption.toList ++ c.take.2.rows = c.rows := by
  rcases c.take_eq with ⟨reason, -, htake⟩ | ⟨-, hrows, htake⟩ | ⟨row, rows, -, hrows, htake⟩
  · rw [htake]
    rfl
  · rw [htake]
    rfl
  · rw [htake, hrows, release_rows]
    rfl

end BeeProtocol
