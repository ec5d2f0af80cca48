import BeeProtocol.Promise.ReplyHandler
import BeeProtocol.Proofs.Lists
import Mathlib.Data.List.Induction

/-!
# The first cause decides a reply

A reply handler completes its promise when it hands over what it has decoded, when it is given up
and when it is let go, and whoever else holds the promise may complete it as well. Decoding and
handing over are two steps, with the result of the latest decode stored between them. Whatever the
order of all these, the first step that has an outcome to give decides the promise for good.
-/

namespace BeeProtocol

/-- The outcome that a payload brings to a single reply of a kind. -/
def MessageKind.outcomeOf (kind : MessageKind) (payload : List UInt8) : Outcome Message :=
  match Message.decode kind payload with
  | .ok message => .ok message
  | .error reason => .error (.decode reason.message)

namespace ReplyHandler

/-! ### Steps -/

/-- What may happen to a handler and its promise. -/
inductive Step
  | decode (payload : List UInt8)
  | complete
  | abandon (reason : ClientError)
  | drop
  /-- Someone else resolves or rejects the promise. -/
  | settle (outcome : Outcome Message)

/-- The handler after a step. -/
def act (h : ReplyHandler) : Step → ReplyHandler
  | .decode payload => h.decode payload
  | .complete => h.complete
  | .abandon reason => h.abandon reason
  | .drop => h.drop
  | .settle outcome => h.settle outcome

/-- The handler of a kind after some steps. -/
def runOf (kind : MessageKind) (steps : List Step) : ReplyHandler := steps.foldl act (.ofKind kind)

/-- The later steps are done after the others. -/
theorem runOf_append (kind : MessageKind) (steps later : List Step) :
    runOf kind (steps ++ later) = later.foldl act (runOf kind steps) := by
  rw [runOf, List.foldl_append, runOf]

/-- One more step is done after the others. -/
theorem runOf_concat (kind : MessageKind) (steps : List Step) (step : Step) :
    runOf kind (steps ++ [step]) = (runOf kind steps).act step := runOf_append kind steps [step]

variable {h : ReplyHandler} {kind : MessageKind} {steps : List Step} {step : Step}
  {outcome : Outcome Message}

/-! ### What one step does -/

/-- The outcome that a step tries to complete the promise with. -/
def attempt? (h : ReplyHandler) : Step → Option (Outcome Message)
  | .decode _ => none
  | .complete => h.decoded
  | .abandon reason => some (.error reason)
  | .drop => some (.error .connectionClosed)
  | .settle outcome => some outcome

/-- A promise that is decided stays as it is. -/
theorem settle_of_some {first : Outcome Message} (hfirst : h.promise.outcome = some first) :
    h.settle outcome = h := by
  simp [settle, Promise.complete, hfirst]

/-- A reply that is decided stays as it is. -/
theorem outcome_settle (h : ReplyHandler) (outcome : Outcome Message) :
    (h.settle outcome).promise.outcome = some (h.promise.outcome.getD outcome) := by
  unfold settle Promise.complete
  cases houtcome : h.promise.outcome <;> simp [houtcome]

/-- A step completes the promise with the outcome that it tries, unless it is complete. -/
theorem outcome_act (h : ReplyHandler) (step : Step) :
    (h.act step).promise.outcome = h.promise.outcome.or (h.attempt? step) := by
  have hsettle (outcome : Outcome Message) :
      some (h.promise.outcome.getD outcome) = h.promise.outcome.or (some outcome) := by
    cases h.promise.outcome <;> rfl
  cases step with
  | decode payload => simp [act, decode, attempt?]
  | complete =>
    rw [act, complete, attempt?]
    cases h.decoded with
    | none => simp
    | some outcome => exact (outcome_settle _ outcome).trans (hsettle outcome)
  | abandon reason => exact (h.outcome_settle _).trans (hsettle _)
  | drop => exact (h.outcome_settle _).trans (hsettle _)
  | settle outcome => exact (h.outcome_settle _).trans (hsettle _)

/-- A step leaves a promise that is complete as it is. -/
theorem promise_act {first : Outcome Message} (hfirst : h.promise.outcome = some first)
    (step : Step) : (h.act step).promise = h.promise := by
  have hsettle {h' : ReplyHandler} (hsame : h'.promise = h.promise) (outcome : Outcome Message) :
      (h'.settle outcome).promise = h.promise := by
    rw [settle_of_some (hsame ▸ hfirst), hsame]
  cases step with
  | decode payload => rfl
  | complete =>
    rw [act, complete]
    cases h.decoded with
    | none => rfl
    | some outcome => exact hsettle rfl outcome
  | abandon reason => exact hsettle rfl _
  | drop => exact hsettle rfl _
  | settle outcome => exact hsettle rfl _

/-- The kind of a reply never changes in a step. -/
theorem kind_act (h : ReplyHandler) (step : Step) : (h.act step).kind = h.kind := by
  cases step with
  | complete =>
    rw [act, complete]
    cases h.decoded <;> rfl
  | _ => rfl

/-- The kind of a reply never changes. -/
theorem kind_runOf (kind : MessageKind) (steps : List Step) : (runOf kind steps).kind = kind := by
  induction steps using List.reverseRecOn with
  | nil => rfl
  | append_singleton steps step ih => rw [runOf_concat, kind_act, ih]

/-! ### The stored result -/

/-- Nothing was handed over since the payload was decoded, and no other payload was decoded
since. -/
def Holds (steps : List Step) (payload : List UInt8) : Prop :=
  ∃ earlier later, steps = earlier ++ .decode payload :: later ∧
    ∀ step ∈ later, step ≠ .complete ∧ ∀ other, step ≠ .decode other

/-- Nothing is held before a payload was decoded. -/
theorem not_holds_nil (payload : List UInt8) : ¬ Holds [] payload := by
  rintro ⟨earlier, later, hsteps, -⟩
  simp at hsteps

/-- A payload is held from when it is decoded until it completes or another one is decoded. -/
theorem holds_concat_iff {payload : List UInt8} :
    Holds (steps ++ [step]) payload ↔ step = .decode payload ∨
      Holds steps payload ∧ step ≠ .complete ∧ ∀ other, step ≠ .decode other := by
  constructor
  · rintro ⟨earlier, later, hsteps, hlater⟩
    rcases Lists.append_singleton_eq_iff.mp hsteps with ⟨-, hstep, -⟩ | ⟨rest, rfl, hrest⟩
    · exact .inl hstep.symm
    · refine .inr ⟨⟨earlier, rest, hrest, fun other hother => ?_⟩, ?_⟩
      · exact hlater other (List.mem_append_left _ hother)
      · exact hlater step (List.mem_append_right _ (List.mem_singleton_self step))
  · rintro (rfl | ⟨⟨earlier, later, rfl, hlater⟩, hstep⟩)
    · exact ⟨steps, [], rfl, fun other hother => absurd hother List.not_mem_nil⟩
    · refine ⟨earlier, later ++ [step], by simp, fun other hother => ?_⟩
      rcases List.mem_append.mp hother with hother | hother
      · exact hlater other hother
      · exact List.mem_singleton.mp hother ▸ hstep

/-- A step decodes a payload, completes the one that was decoded or leaves it. -/
theorem decoded_act (h : ReplyHandler) (step : Step) :
    (h.act step).decoded =
      match step with
      | .decode payload => some (h.kind.outcomeOf payload)
      | .complete => none
      | _ => h.decoded := by
  cases step with
  | complete =>
    rw [act, complete]
    cases hdecoded : h.decoded with
    | none => exact hdecoded
    | some outcome => rfl
  | _ => rfl

/-- The stored result is that of the payload which the steps left to be handed over. -/
theorem decoded_runOf_iff :
    (runOf kind steps).decoded = some outcome ↔
      ∃ payload, Holds steps payload ∧ outcome = kind.outcomeOf payload := by
  induction steps using List.reverseRecOn with
  | nil =>
    refine iff_of_false nofun ?_
    rintro ⟨payload, hholds, -⟩
    exact not_holds_nil payload hholds
  | append_singleton steps step ih =>
    simp only [runOf_concat, decoded_act, kind_runOf, holds_concat_iff]
    cases step <;> simp [ih, eq_comm]

/-! ### Causes -/

/-- What a step completes the promise with after the steps before it, if nothing has yet. -/
inductive Causes (kind : MessageKind) (before : List Step) : Step → Outcome Message → Prop
  /-- The message that was decoded is handed over. -/
  | handed {payload : List UInt8} {message : Message} (holds : Holds before payload)
      (decodes : Message.decode kind payload = .ok message) :
      Causes kind before .complete (.ok message)
  /-- The payload was malformed: the failure is handed over, with the text of the decoder. -/
  | malformed {payload : List UInt8} {reason : ProtocolError} (holds : Holds before payload)
      (fails : Message.decode kind payload = .error reason) :
      Causes kind before .complete (.error (.decode reason.message))
  | abandoned (reason : ClientError) : Causes kind before (.abandon reason) (.error reason)
  | dropped : Causes kind before .drop (.error .connectionClosed)
  | settled (outcome : Outcome Message) : Causes kind before (.settle outcome) outcome

/-- A step is a cause of an outcome exactly when it attempts it there. -/
theorem causes_iff {before : List Step} :
    Causes kind before step outcome ↔ (runOf kind before).attempt? step = some outcome := by
  constructor
  · rintro (⟨hholds, hdecodes⟩ | ⟨hholds, hfails⟩ | _ | _ | _)
    · exact decoded_runOf_iff.mpr ⟨_, hholds, by rw [MessageKind.outcomeOf, hdecodes]⟩
    · exact decoded_runOf_iff.mpr ⟨_, hholds, by rw [MessageKind.outcomeOf, hfails]⟩
    · rfl
    · rfl
    · rfl
  · intro hattempt
    cases step with
    | decode payload => cases hattempt
    | complete =>
      obtain ⟨payload, hholds, rfl⟩ := decoded_runOf_iff.mp hattempt
      unfold MessageKind.outcomeOf
      cases hdecode : Message.decode kind payload with
      | ok message => exact .handed hholds hdecode
      | error reason => exact .malformed hholds hdecode
    | abandon reason =>
      obtain rfl := Option.some.inj hattempt
      exact .abandoned reason
    | drop =>
      obtain rfl := Option.some.inj hattempt
      exact .dropped
    | settle first =>
      obtain rfl := Option.some.inj hattempt
      exact .settled first

/-- No step had an outcome to give. -/
def Uncaused (kind : MessageKind) (steps : List Step) : Prop :=
  ∀ before step after, steps = before ++ step :: after →
    ∀ outcome, ¬ Causes kind before step outcome

/-- The outcome is what the first step that had one to give came with. -/
def FirstCause (kind : MessageKind) (steps : List Step) (outcome : Outcome Message) : Prop :=
  ∃ before step after, steps = before ++ step :: after ∧ Uncaused kind before ∧
    Causes kind before step outcome

/-- There is still no cause if the last step is none. -/
theorem uncaused_concat_iff :
    Uncaused kind (steps ++ [step]) ↔
      Uncaused kind steps ∧ ∀ outcome, ¬ Causes kind steps step outcome := by
  constructor
  · intro h
    refine ⟨fun before earlier after hsteps => ?_, h steps step [] rfl⟩
    exact h before earlier (after ++ [step]) (by simp [hsteps])
  · rintro ⟨hbefore, hlast⟩ before earlier after hsteps
    rcases Lists.append_singleton_eq_iff.mp hsteps with ⟨rfl, rfl, -⟩ | ⟨rest, -, hrest⟩
    · exact hlast
    · exact hbefore before earlier rest hrest

/-- The first cause is one of the earlier steps, or the last one if there was none. -/
theorem firstCause_concat_iff :
    FirstCause kind (steps ++ [step]) outcome ↔
      FirstCause kind steps outcome ∨ Uncaused kind steps ∧ Causes kind steps step outcome := by
  constructor
  · rintro ⟨before, first, after, hsteps, hnone, hcauses⟩
    rcases Lists.append_singleton_eq_iff.mp hsteps with ⟨rfl, rfl, -⟩ | ⟨rest, -, hrest⟩
    · exact .inr ⟨hnone, hcauses⟩
    · exact .inl ⟨before, first, rest, hrest, hnone, hcauses⟩
  · rintro (⟨before, first, after, rfl, hnone, hcauses⟩ | ⟨hnone, hcauses⟩)
    · exact ⟨before, first, after ++ [step], by simp, hnone, hcauses⟩
    · exact ⟨steps, step, [], rfl, hnone, hcauses⟩

/-! ### Runs -/

/-- The promise of a run is not complete as long as no step had an outcome to give, and from then on
it holds the first such outcome. -/
theorem outcome_runOf (kind : MessageKind) (steps : List Step) :
    ((runOf kind steps).promise.outcome = none ↔ Uncaused kind steps) ∧
      ∀ outcome, (runOf kind steps).promise.outcome = some outcome ↔
        FirstCause kind steps outcome := by
  induction steps using List.reverseRecOn with
  | nil =>
    refine ⟨iff_of_true rfl fun before step after hsteps => ?_, fun outcome => ?_⟩
    · simp at hsteps
    · refine iff_of_false nofun ?_
      rintro ⟨before, step, after, hsteps, -⟩
      simp at hsteps
  | append_singleton steps step ih =>
    obtain ⟨hnone, hfirst⟩ := ih
    have hcauses (outcome : Outcome Message) :
        Causes kind steps step outcome ↔ (runOf kind steps).attempt? step = some outcome :=
      causes_iff
    rw [runOf_concat, outcome_act]
    constructor
    · rw [uncaused_concat_iff, Option.or_eq_none_iff, hnone, Option.eq_none_iff_forall_ne_some]
      simp only [hcauses, ne_eq]
    · intro outcome
      rw [firstCause_concat_iff, Option.or_eq_some_iff, hfirst, hnone, hcauses]

/-- What later steps do to a promise that is complete: nothing. -/
theorem promise_runOf_append (hcomplete : (runOf kind steps).promise.outcome = some outcome)
    (later : List Step) :
    (runOf kind (steps ++ later)).promise = (runOf kind steps).promise := by
  induction later using List.reverseRecOn with
  | nil => rw [List.append_nil]
  | append_singleton later step ih =>
    rw [← List.append_assoc, runOf_concat, promise_act (ih ▸ hcomplete), ih]

/-- A handler that was let go has completed its promise. -/
theorem exists_outcome_of_drop (hdrop : .drop ∈ steps) :
    ∃ outcome, (runOf kind steps).promise.outcome = some outcome := by
  obtain ⟨before, after, rfl⟩ := List.append_of_mem hdrop
  rw [← Option.ne_none_iff_exists', ne_eq, (outcome_runOf kind _).1]
  exact fun hnone => hnone before .drop after rfl _ .dropped

/-- How the promise of a handler fares in a run. -/
structure CompletesOnce (kind : MessageKind) (steps : List Step) : Prop where
  /-- The promise holds what the first step that had an outcome to give came with. -/
  first : ∀ outcome, (runOf kind steps).promise.outcome = some outcome ↔
    FirstCause kind steps outcome
  /-- It is not complete exactly as long as no step had one. -/
  pending : (runOf kind steps).promise.outcome = none ↔ Uncaused kind steps
  /-- Decoding alone does not touch the promise. -/
  decode : ∀ payload,
    (runOf kind (steps ++ [.decode payload])).promise = (runOf kind steps).promise
  /-- Someone else's completion is accepted exactly as long as no step had an outcome to give. -/
  accepts : ∀ outcome, ((runOf kind steps).promise.complete outcome).1 = true ↔ Uncaused kind steps
  /-- Once the promise is complete, whatever follows leaves it as it is. -/
  lasting : ∀ outcome, (runOf kind steps).promise.outcome = some outcome →
    ∀ later, (runOf kind (steps ++ later)).promise = (runOf kind steps).promise
  /-- Once the handler was let go, the promise is complete. -/
  dropped : .drop ∈ steps → ∃ outcome, (runOf kind steps).promise.outcome = some outcome

/-- In every run the handler of a reply completes its promise once, with the first cause. -/
theorem completesOnce_runOf (kind : MessageKind) (steps : List Step) :
    CompletesOnce kind steps where
  first := (outcome_runOf kind steps).2
  pending := (outcome_runOf kind steps).1
  decode := fun payload => by rw [runOf_concat, act, ReplyHandler.decode]
  accepts := fun outcome => by
    rw [← (outcome_runOf kind steps).1, Promise.complete]
    cases (runOf kind steps).promise.outcome <;> simp
  lasting := fun _ hcomplete later => promise_runOf_append hcomplete later
  dropped := exists_outcome_of_drop

-- A result that was stored before the handler was given up is handed over too late.
example :
    (runOf .connectResponse [.decode [0, 0, 0, 0], .abandon .emptyResult, .complete,
      .drop]).promise.outcome = some (.error .emptyResult) :=
  rfl

end ReplyHandler

end BeeProtocol
