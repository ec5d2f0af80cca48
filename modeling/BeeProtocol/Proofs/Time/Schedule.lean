import BeeProtocol.Time.Schedule

/-!
# Schedules as sequences of actions

Where every turn and every passing of time is an action, whatever a schedule does on its own is a
sequence of actions. So what holds after all sequences of actions holds on every schedule.
-/

namespace BeeProtocol.Schedule

variable {σ α : Type} [Schedule σ] {act : σ → α → σ}

/-- Giving turns while a call can go on is a sequence of actions. -/
theorem exists_actions_run (hturn : ∀ s : σ, isBusy s → ∃ action, turn s = act s action)
    (fuel : Nat) (s : σ) : ∃ actions : List α, run fuel s = actions.foldl act s := by
  induction fuel generalizing s with
  | zero => exact ⟨[], rfl⟩
  | succ fuel ih =>
    rw [run]
    split
    · rename_i hbusy
      obtain ⟨action, haction⟩ := hturn s hbusy
      obtain ⟨actions, hactions⟩ := ih (turn s)
      refine ⟨action :: actions, ?_⟩
      rw [hactions, haction, List.foldl_cons]
    · exact ⟨[], rfl⟩

/-- Letting time pass is a sequence of actions. -/
theorem exists_actions_elapse (hturn : ∀ s : σ, isBusy s → ∃ action, turn s = act s action)
    (hpass : ∀ (gap : Nat) (s : σ), ∃ action, pass gap s = act s action) (gap : Nat) (s : σ) :
    ∃ actions : List α, elapse gap s = actions.foldl act s := by
  induction gap using Nat.strongRecOn generalizing s with
  | ind gap ih =>
    rw [elapse]
    split
    · exact ⟨[], rfl⟩
    · dsimp only
      -- Only that some time passes at each stop matters, not how much.
      have hsome : 1 ≤ max 1 (min gap ((untilDeadline s).getD gap)) := Nat.le_max_left _ _
      generalize max 1 (min gap ((untilDeadline s).getD gap)) = step at hsome
      obtain ⟨wait, hwait⟩ := hpass step s
      obtain ⟨first, hfirst⟩ := exists_actions_run hturn (work (pass step s)) (pass step s)
      obtain ⟨rest, hrest⟩ := ih (gap - step) (by omega) (settle (pass step s))
      refine ⟨wait :: first ++ rest, ?_⟩
      rw [hrest, settle, hfirst, hwait, List.cons_append, List.foldl_cons, List.foldl_append]

end BeeProtocol.Schedule
