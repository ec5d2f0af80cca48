import BeeProtocol.Promise.Session
import BeeProtocol.Proofs.Time.Schedule
import Mathlib.Data.List.Induction
import Mathlib.Data.List.Nodup

/-!
# Runs of a promise

A run of a promise is any sequence of completions, registrations of callbacks, waits, cancellations,
turns and passing time, in any order; a call takes its turn whether or not it was woken. What the
promise holds and what its callbacks were told is a matter of the completions and registrations
alone, and a wait that can go on is always among the calls that are woken.
-/

namespace BeeProtocol.Promise.Session

variable {α : Type}

/-! ### Actions -/

/-- What can be done with a promise and the calls that wait for it. A completion is a resolution or
a rejection; all handles of a promise stand for the same cell. -/
inductive Action (α : Type)
  | complete (outcome : Outcome α)
  | onComplete (callback : Callback α)
  | wait (label : Nat) (bound : Option Duration)
  | cancel (label : Nat)
  | pass (gap : Nat)
  | turn (label : Nat)

/-- The session after an action. A wait gets a label that no other wait has at the time. -/
def act (s : Session α) : Action α → Session α
  | .complete outcome => (s.complete outcome).2
  | .onComplete callback => s.onComplete callback
  | .wait label bound => if s.isRunning label then s else s.wait label bound
  | .cancel label => s.cancel label
  | .pass gap => s.pass gap
  | .turn label => s.turnOf label

/-- The session after some actions. -/
def runOf (actions : List (Action α)) : Session α := actions.foldl act .empty

/-- A run with one more action ends with that action. -/
theorem runOf_append (actions : List (Action α)) (action : Action α) :
    runOf (actions ++ [action]) = (runOf actions).act action := by
  simp [runOf]

/-! ### The clock -/

/-- The milliseconds that pass with an action. -/
def Action.gap : Action α → Nat
  | .pass gap => gap
  | _ => 0

/-- The milliseconds that have passed since the start. -/
def elapsed (actions : List (Action α)) : Nat :=
  actions.foldl (fun passed action => passed + action.gap) 0

/-- A turn takes no time. -/
theorem now_turnOf (s : Session α) (label : Nat) : (s.turnOf label).now = s.now := by
  rw [turnOf]
  dsimp only
  split
  · rfl
  · split <;> rfl

/-- A completion takes no time. -/
theorem now_complete (s : Session α) (outcome : Outcome α) :
    (s.complete outcome).2.now = s.now := by
  rw [complete]
  dsimp only
  split <;> rfl

/-- An action takes the time that it lets pass. -/
theorem now_act (s : Session α) (action : Action α) : (s.act action).now = s.now + action.gap := by
  cases action with
  | complete outcome => exact now_complete s outcome
  | turn label => exact now_turnOf s label
  | wait label bound =>
    rw [act]
    split <;> rfl
  | _ => rfl

/-- The clock shows the time that has passed since the start. -/
theorem now_runOf (actions : List (Action α)) : (runOf actions).now = elapsed actions := by
  induction actions using List.reverseRecOn with
  | nil => rfl
  | append_singleton actions action ih => simp [runOf_append, now_act, ih, elapsed]

/-! ### The schedule -/

/-- A turn on the schedule of a promise is an action. -/
theorem exists_action_turn (s : Session α) (h : Schedule.isBusy s) :
    ∃ action : Action α, Schedule.turn s = s.act action := by
  cases hready : s.ready with
  | nil => simp [Schedule.isBusy, hready] at h
  | cons label ready => exact ⟨.turn label, by simp [Schedule.turn, hready, act]⟩

/-- Letting time pass is a sequence of actions. -/
theorem exists_actions_elapse (gap : Nat) (s : Session α) :
    ∃ actions : List (Action α), Schedule.elapse gap s = actions.foldl act s :=
  Schedule.exists_actions_elapse exists_action_turn (fun gap _ => ⟨.pass gap, rfl⟩) gap s

/-- Letting the calls run until none can go on is a sequence of actions. -/
theorem exists_actions_settle (s : Session α) :
    ∃ actions : List (Action α), Schedule.settle s = actions.foldl act s :=
  Schedule.exists_actions_run exists_action_turn (Schedule.work s) s

/-! ### The cell and its callbacks -/

/-- The outcome that an action tries to complete the promise with. -/
def Action.outcome? : Action α → Option (Outcome α)
  | .complete outcome => some outcome
  | _ => none

/-- The callback that an action registers. -/
def Action.callback? : Action α → Option (Callback α)
  | .onComplete callback => some callback
  | _ => none

/-- The outcomes of all completions that were tried, oldest first. -/
def completions (actions : List (Action α)) : List (Outcome α) := actions.filterMap (·.outcome?)

/-- All callbacks that were registered, oldest first. -/
def registered (actions : List (Action α)) : List (Callback α) := actions.filterMap (·.callback?)

/-- The run of a callback on a promise with an outcome: its own attempt is refused. -/
def heard (outcome : Outcome α) (callback : Callback α) : Notice α :=
  ⟨callback.label, outcome, callback.attempt.map fun _ => false⟩

/-- On a complete promise a callback hears the outcome, and its own attempt is refused. -/
theorem notify_eq {promise : Promise α} {first : Outcome α} (h : promise.outcome = some first)
    (outcome : Outcome α) : promise.notify outcome = heard outcome := by
  funext callback
  simp [notify, heard, isComplete, h]

/-- The completions of a run with one more action. -/
@[simp] theorem completions_append (actions : List (Action α)) (action : Action α) :
    completions (actions ++ [action]) = completions actions ++ action.outcome?.toList := by
  simp [completions, List.filterMap_cons]
  cases action.outcome? <;> rfl

/-- The registrations of a run with one more action. -/
@[simp] theorem registered_append (actions : List (Action α)) (action : Action α) :
    registered (actions ++ [action]) = registered actions ++ action.callback?.toList := by
  simp [registered, List.filterMap_cons]
  cases action.callback? <;> rfl

/-- A wake leaves the promise as it is. -/
@[simp] theorem wake_promise (s : Session α) (labels : List Nat) :
    (s.wake labels).promise = s.promise := rfl

/-- A wake runs no callback. -/
@[simp] theorem wake_notices (s : Session α) (labels : List Nat) :
    (s.wake labels).notices = s.notices := rfl

/-- A complete promise refuses every completion and stays as it is. -/
theorem complete_of_some {s : Session α} {first : Outcome α} (h : s.promise.outcome = some first)
    (outcome : Outcome α) : s.complete outcome = (false, s) := by
  simp [complete, Promise.complete, h]

/-- A promise that is not complete accepts a completion, runs its callbacks in order and wakes all
waits. -/
theorem complete_of_none {s : Session α} (h : s.promise.outcome = none) (outcome : Outcome α) :
    s.complete outcome = (true, { s with
      promise := ⟨some outcome, []⟩
      notices := s.notices ++ s.promise.callbacks.map (heard outcome) }.wake
        (s.waits.map Wait.label)) := by
  have hnotify : (⟨some outcome, []⟩ : Promise α).notify outcome = heard outcome :=
    notify_eq rfl outcome
  simp [complete, Promise.complete, h, hnotify]

/-- The promise and what its callbacks were told. -/
def cell (s : Session α) : Promise α × List (Notice α) := (s.promise, s.notices)

/-- A turn leaves the promise as it is and runs no callback. -/
theorem cell_turnOf (s : Session α) (label : Nat) : (s.turnOf label).cell = s.cell := by
  rw [turnOf]
  dsimp only
  split
  · rfl
  · split <;> rfl

/-- Only completions and registrations touch the promise and its callbacks. -/
theorem cell_act (s : Session α) {action : Action α} (houtcome : action.outcome? = none)
    (hcallback : action.callback? = none) : (s.act action).cell = s.cell := by
  cases action with
  | complete outcome => cases houtcome
  | onComplete callback => cases hcallback
  | wait label bound =>
    rw [act]
    split <;> rfl
  | cancel label => rfl
  | pass gap => rfl
  | turn label => exact cell_turnOf s label

/-- What a promise holds and what its callbacks were told, by what was tried and registered. -/
def cellOf (outcomes : List (Outcome α)) (callbacks : List (Callback α)) :
    Promise α × List (Notice α) :=
  match outcomes with
  | [] => (⟨none, callbacks⟩, [])
  | outcome :: _ => (⟨some outcome, []⟩, callbacks.map (heard outcome))

/-- An action adds its completion and its registration to what the cell is told by. -/
theorem cell_step {s : Session α} {outcomes : List (Outcome α)} {callbacks : List (Callback α)}
    (h : s.cell = cellOf outcomes callbacks) (action : Action α) :
    (s.act action).cell =
      cellOf (outcomes ++ action.outcome?.toList) (callbacks ++ action.callback?.toList) := by
  obtain ⟨hpromise, hnotices⟩ := Prod.mk.inj h
  cases action with
  | complete outcome =>
    rw [act]
    cases outcomes with
    | nil =>
      rw [complete_of_none (by rw [hpromise])]
      simp [cell, cellOf, Action.outcome?, Action.callback?, hpromise, hnotices]
    | cons first outcomes =>
      have hfirst : s.promise.outcome = some first := by rw [hpromise]
      rw [complete_of_some hfirst, h]
      simp [cellOf, Action.outcome?, Action.callback?]
  | onComplete callback =>
    rw [act, onComplete, Promise.onComplete]
    cases outcomes with
    | nil => simp [cell, cellOf, Action.outcome?, Action.callback?, hpromise, hnotices]
    | cons first outcomes =>
      have hnotify : s.promise.notify first = heard first := notify_eq (by rw [hpromise]) first
      simp [cell, cellOf, Action.outcome?, Action.callback?, hpromise, hnotices, ← hnotify]
  | _ =>
    rw [cell_act s rfl rfl, h]
    simp [Action.outcome?, Action.callback?]

/-- The first completion decides, and each callback is run once, in the order in which they were
registered. -/
theorem cell_runOf (actions : List (Action α)) :
    (runOf actions).cell = cellOf (completions actions) (registered actions) := by
  induction actions using List.reverseRecOn with
  | nil => rfl
  | append_singleton actions action ih =>
    rw [runOf_append, completions_append, registered_append]
    exact cell_step ih action

/-- The promise holds the outcome of the first completion. -/
theorem outcome_runOf (actions : List (Action α)) :
    (runOf actions).promise.outcome = (completions actions).head? := by
  obtain ⟨hpromise, -⟩ := Prod.mk.inj (cell_runOf actions)
  rw [hpromise]
  cases completions actions <;> rfl

end BeeProtocol.Promise.Session
