import BeeProtocol.Proofs.Promise.Waits

/-!
# A promise is assigned once and tells everyone the same

The first completion of a promise decides its outcome for good. Its callbacks are told that outcome
once each, and so is every wait that does not pass its deadline first. Every wait that was started
is still pending, or was cancelled, or has been told once.
-/

namespace BeeProtocol.Promise.Session

variable {α : Type}

/-- What a promise does in a run. -/
structure AssignedOnce (actions : List (Action α)) : Prop where
  /-- A completion is accepted exactly if none was tried before it. -/
  accepts : ∀ outcome, ((runOf actions).complete outcome).1 = true ↔ completions actions = []
  /-- The promise holds the outcome of the first completion, from then on. -/
  outcome : (runOf actions).promise.outcome = (completions actions).head?
  /-- No callback has run before the first completion. From then on every callback that is
  registered has run exactly once with the outcome, in the order of registration. -/
  notices : (runOf actions).notices =
    (completions actions).head?.elim [] fun outcome => (registered actions).map (heard outcome)
  /-- The clock shows the time that has passed since the start. -/
  clock : (runOf actions).now = elapsed actions
  /-- A wait under a free label is pending from then on, with its bound counted from that time, and
  its call gets a first turn. -/
  begins : ∀ label bound, (runOf actions).isRunning label = false →
    (∀ wait, wait ∈ (runOf (actions ++ [.wait label bound])).waits ↔ wait ∈ (runOf actions).waits ∨
      wait = ⟨label, bound, bound.map (Clock.after (runOf actions).now)⟩) ∧
    label ∈ (runOf (actions ++ [.wait label bound])).ready
  /-- Every wait that was started has been pending ever since, or was pending until it was
  cancelled, or until a turn of its own ended it with an answer that it may have. -/
  fate : ∀ earlier label bound later, actions = earlier ++ .wait label bound :: later →
    (runOf earlier).isRunning label = false →
    Fate (earlier ++ [.wait label bound])
      ⟨label, bound, bound.map (Clock.after (runOf earlier).now)⟩ later
  /-- Pending waits are told apart by their labels. -/
  distinct : ((runOf actions).waits.map Wait.label).Nodup
  /-- A pending wait was started in the run, and its deadline stands since then. -/
  started : ∀ wait ∈ (runOf actions).waits, Started actions wait
  /-- An action reports nothing and takes off only the wait that it cancels, or it ends one wait
  with an answer that this wait may have. -/
  step : ∀ action, ((runOf (actions ++ [action])).finished = (runOf actions).finished ∧
    ∀ wait ∈ (runOf actions).waits, action ≠ .cancel wait.label →
      wait ∈ (runOf (actions ++ [action])).waits) ∨ ∃ wait result, Ends actions wait result action
  /-- A cancellation takes off the wait with its label and no other, and reports nothing. -/
  cancels : ∀ label, (∀ wait, wait ∈ (runOf (actions ++ [.cancel label])).waits ↔
      wait ∈ (runOf actions).waits ∧ wait.label ≠ label) ∧
    (runOf (actions ++ [.cancel label])).finished = (runOf actions).finished
  /-- A pending wait that has an answer is among the calls that can go on. -/
  awake : ∀ wait ∈ (runOf actions).waits, ∀ result, Answers actions wait result →
    wait.label ∈ (runOf actions).ready
  /-- On a complete promise the turn of a wait ends it with the outcome, due or not. -/
  told : ∀ wait ∈ (runOf actions).waits, ∀ outcome, (completions actions).head? = some outcome →
    Ends actions wait outcome (.turn wait.label)
  /-- On a promise that is not complete the turn of a wait at its deadline ends it in a timeout. -/
  lapses : completions actions = [] → ∀ wait ∈ (runOf actions).waits, ∀ bound deadline,
    wait.bound = some bound → wait.deadline = some deadline →
    deadline ≤ (runOf actions).now * Clock.tick →
      Ends actions wait (.error (timeout bound)) (.turn wait.label)
  /-- Where no call can go on, every pending wait is for an outcome that nobody has given, and the
  time is before its deadline. -/
  quiet : (runOf actions).ready = [] → ∀ wait ∈ (runOf actions).waits, completions actions = [] ∧
    ∀ deadline, wait.deadline = some deadline → (runOf actions).now * Clock.tick < deadline
  /-- Once every ready call has had its turn none can go on, and nobody waits on a complete
  promise. -/
  settles : (runOf (actions ++ (runOf actions).ready.map .turn)).ready = [] ∧
    (completions actions ≠ [] → (runOf (actions ++ (runOf actions).ready.map .turn)).waits = [])
  /-- What is neither a completion nor a registration leaves the promise as it is and runs no
  callback. -/
  untouched : ∀ action : Action α, action.outcome? = none → action.callback? = none →
    (runOf (actions ++ [action])).promise = (runOf actions).promise ∧
      (runOf (actions ++ [action])).notices = (runOf actions).notices

/-- A completion is accepted exactly if none was tried before it. -/
theorem complete_fst_iff (actions : List (Action α)) (outcome : Outcome α) :
    ((runOf actions).complete outcome).1 = true ↔ completions actions = [] := by
  rw [← List.head?_eq_none_iff, ← outcome_runOf]
  cases hcomplete : (runOf actions).promise.outcome with
  | some first => simp [complete_of_some hcomplete]
  | none => simp [complete_of_none hcomplete]

/-- The callbacks hear the first completion, once each, in the order of registration. -/
theorem notices_runOf (actions : List (Action α)) :
    (runOf actions).notices = (completions actions).head?.elim []
      fun outcome => (registered actions).map (heard outcome) := by
  obtain ⟨-, hnotices⟩ := Prod.mk.inj (cell_runOf actions)
  rw [hnotices]
  cases completions actions <;> rfl

/-- In every run, a promise is assigned once and tells everyone the same. -/
theorem assignedOnce_runOf (actions : List (Action α)) : AssignedOnce actions where
  accepts := complete_fst_iff actions
  outcome := outcome_runOf actions
  notices := notices_runOf actions
  clock := now_runOf actions
  begins := fun _ bound hfree => begins_runOf actions bound hfree
  fate := by
    rintro earlier label bound later rfl hfree
    exact fate_of_mem (((begins_runOf earlier bound hfree).1 _).mpr (.inr rfl)) later
  distinct := (sound_runOf actions).distinct
  started := started_runOf actions
  step := act_cases actions
  cancels := cancels_runOf actions
  awake := fun wait hwait result hanswer =>
    (sound_runOf actions).alert wait hwait result (answers_iff.mp hanswer)
  told := fun _ hwait _ hcomplete => ends_of_answers hwait (.inl hcomplete)
  lapses := fun hnone _ hwait bound deadline hbound hdeadline hdue =>
    ends_of_answers hwait (.inr ⟨hnone, bound, deadline, hbound, hdeadline, hdue, rfl⟩)
  quiet := fun hquiet _ hwait => quiet_runOf hquiet hwait
  settles := settles_runOf actions
  untouched := fun action houtcome hcallback => by
    rw [runOf_append]
    exact Prod.mk.inj (cell_act (runOf actions) houtcome hcallback)

/-- Three waits: the first is timed out before the promise is complete, the second is told an
outcome that comes when its deadline is already due, and the third has no deadline. -/
def lateOutcome : List (Action String) :=
  [.wait 0 (some (.ofSeconds 1)), .wait 1 (some (.ofSeconds 2)), .wait 2 none,
    .onComplete ⟨7, some "again"⟩, .pass 1000, .turn 0, .pass 1000,
    .complete (.ok "first"), .complete (.ok "second"), .onComplete ⟨8, none⟩, .turn 2, .turn 1]

/-- The late outcome wins over the due deadline and over the second completion, and every wait and
callback is told once. -/
theorem assignedOnce_lateOutcome : AssignedOnce lateOutcome ∧
    (runOf lateOutcome).finished = [(0, .error (timeout (.ofSeconds 1))), (2, .ok "first"),
      (1, .ok "first")] ∧
    (runOf lateOutcome).notices =
      [⟨7, .ok "first", some false⟩, ⟨8, .ok "first", none⟩] ∧
    Fate [.wait 0 (some (.ofSeconds 1))]
      ⟨0, some (.ofSeconds 1), some (Clock.after 0 (.ofSeconds 1))⟩
      (lateOutcome.drop 1) :=
  ⟨assignedOnce_runOf lateOutcome, rfl, rfl,
    (assignedOnce_runOf lateOutcome).fate [] 0 _ (lateOutcome.drop 1) rfl rfl⟩

end BeeProtocol.Promise.Session
