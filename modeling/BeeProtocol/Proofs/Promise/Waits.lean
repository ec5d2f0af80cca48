import BeeProtocol.Proofs.Promise.Run

/-!
# Waits for a promise

A wait that is started is pending until it is cancelled or a turn of its own ends it. The turn ends
it with the outcome of the promise, or with a timeout if there is none at its deadline, and lets it
sleep otherwise. No wait sleeps on a complete promise or past its deadline, since completing a
promise wakes all waits and time wakes those that are due.
-/

namespace BeeProtocol.Promise.Session

variable {α : Type}

/-! ### Waits and turns -/

/-- A wait ends with the outcome of the promise, or without one at its deadline. -/
theorem result?_eq_some_iff {wait : Wait} {now : Nat} {promise : Promise α} {result : Outcome α} :
    wait.result? now promise = some result ↔ promise.outcome = some result ∨
      promise.outcome = none ∧ ∃ bound deadline, wait.bound = some bound ∧
        wait.deadline = some deadline ∧ deadline ≤ now * Clock.tick ∧
          result = .error (timeout bound) := by
  unfold Wait.result?
  cases promise.outcome with
  | some outcome => simp
  | none =>
    cases wait.bound <;> cases wait.deadline <;> simp [Clock.isDue, eq_comm]

/-- Of the promise only its outcome matters to a wait. -/
theorem result?_congr {promise promise' : Promise α} (h : promise.outcome = promise'.outcome)
    (wait : Wait) (now : Nat) : wait.result? now promise = wait.result? now promise' := by
  unfold Wait.result?
  rw [h]

/-- Waits are told apart by their labels, and every wait that can go on is woken. -/
structure Sound (s : Session α) : Prop where
  /-- No two waits have the same label. -/
  distinct : (s.waits.map Wait.label).Nodup
  /-- A wait that has its answer was woken. -/
  alert : ∀ wait ∈ s.waits, ∀ result, wait.result? s.now s.promise = some result →
    wait.label ∈ s.ready

/-- At the start nobody waits. -/
theorem sound_empty : Sound (empty : Session α) where
  distinct := List.nodup_nil
  alert := fun _ hwait => absurd hwait List.not_mem_nil

/-- A call can go on after a wake if it could before or was woken. -/
theorem mem_ready_wake {s : Session α} {labels : List Nat} {label : Nat} :
    label ∈ (s.wake labels).ready ↔ label ∈ s.ready ∨ label ∈ labels := by
  simp only [wake, List.mem_append, List.mem_filter, Bool.not_eq_eq_eq_not, Bool.not_true,
    List.contains_eq_mem, decide_eq_false_iff_not]
  tauto

/-- The turn of a call that does not wait any more changes nothing. -/
theorem turnOf_of_notMem {s : Session α} {label : Nat} (h : ∀ wait ∈ s.waits, wait.label ≠ label) :
    s.turnOf label = { s with ready := s.ready.erase label } := by
  have hnone : s.waits.find? (·.label == label) = none := by
    simpa using h
  simp [turnOf, hnone]

namespace Sound

variable {s : Session α}

/-- Waits with the same label are the same. -/
theorem eq_of_label (h : s.Sound) {wait other : Wait} (hwait : wait ∈ s.waits)
    (hother : other ∈ s.waits) (hlabel : wait.label = other.label) : wait = other :=
  List.inj_on_of_nodup_map h.distinct hwait hother hlabel

/-- Every wait is found by its label. -/
theorem find?_eq (h : s.Sound) {wait : Wait} (hwait : wait ∈ s.waits) :
    s.waits.find? (·.label == wait.label) = some wait := by
  cases hfind : s.waits.find? (·.label == wait.label) with
  | none =>
    have hno := List.find?_eq_none.mp hfind wait hwait
    simp at hno
  | some found =>
    have hlabel := List.find?_some hfind
    rw [h.eq_of_label (List.mem_of_find?_eq_some hfind) hwait (by simpa using hlabel)]

/-- The turn of a wait that can go on ends it. -/
theorem turnOf_of_result (h : s.Sound) {wait : Wait} (hwait : wait ∈ s.waits) {result : Outcome α}
    (hresult : wait.result? s.now s.promise = some result) :
    s.turnOf wait.label =
      { s with
        waits := s.waits.filter (·.label != wait.label)
        ready := (s.ready.erase wait.label).filter (· != wait.label)
        finished := s.finished ++ [(wait.label, result)] } := by
  simp [turnOf, h.find?_eq hwait, hresult, finish, cancel]

/-- The turn of a wait that cannot go on lets it sleep. -/
theorem turnOf_of_asleep (h : s.Sound) {wait : Wait} (hwait : wait ∈ s.waits)
    (hresult : wait.result? s.now s.promise = none) :
    s.turnOf wait.label = { s with ready := s.ready.erase wait.label } := by
  simp [turnOf, h.find?_eq hwait, hresult]

/-- The wait with a label is the only one that a filter by the label takes off. -/
theorem mem_filter_iff (h : s.Sound) {wait other : Wait} (hwait : wait ∈ s.waits) :
    other ∈ s.waits.filter (·.label != wait.label) ↔ other ∈ s.waits ∧ other ≠ wait := by
  rw [List.mem_filter, bne_iff_ne]
  refine and_congr_right fun hother => not_congr ⟨h.eq_of_label hother hwait, ?_⟩
  rintro rfl
  rfl

/-! ### What every action preserves -/

/-- Completing a promise wakes all waits, so none of them sleeps on its outcome. -/
theorem complete (h : s.Sound) (outcome : Outcome α) : (s.complete outcome).2.Sound := by
  cases hcomplete : s.promise.outcome with
  | some first =>
    rw [complete_of_some hcomplete]
    exact h
  | none =>
    rw [complete_of_none hcomplete]
    refine ⟨h.distinct, fun wait hwait _ _ => mem_ready_wake.mpr (.inr ?_)⟩
    exact List.mem_map_of_mem hwait

/-- A registration gives no wait a result. -/
theorem onComplete (h : s.Sound) (callback : Callback α) : (s.onComplete callback).Sound := by
  have hsame : (s.promise.onComplete callback).1.outcome = s.promise.outcome := by
    unfold Promise.onComplete
    cases hcomplete : s.promise.outcome <;> simp [hcomplete]
  refine ⟨h.distinct, fun wait hwait result hresult => h.alert wait hwait result ?_⟩
  exact (result?_congr hsame wait s.now).symm.trans hresult

/-- A wait under a free label is told apart from the others and gets a first turn. -/
theorem wait (h : s.Sound) {label : Nat} (hfree : s.isRunning label = false)
    (bound : Option Duration) : (s.wait label bound).Sound := by
  have hnew : ∀ wait ∈ s.waits, wait.label ≠ label := by simpa [isRunning] using hfree
  constructor
  · rw [Session.wait, List.map_append, List.nodup_append]
    refine ⟨h.distinct, List.nodup_singleton _, ?_⟩
    rintro other hother _ hlabel
    obtain ⟨wait, hwait, rfl⟩ := List.mem_map.mp hother
    obtain rfl := List.mem_singleton.mp hlabel
    exact hnew wait hwait
  · intro wait hwait result hresult
    rcases List.mem_append.mp hwait with hwait | hwait
    · exact List.mem_append_left _ (h.alert wait hwait result hresult)
    · obtain rfl := List.mem_singleton.mp hwait
      exact List.mem_append_right _ List.mem_cons_self

/-- A cancellation takes off a wait together with its wakes. -/
theorem cancel (h : s.Sound) (label : Nat) : (s.cancel label).Sound := by
  constructor
  · exact h.distinct.sublist (List.filter_sublist.map Wait.label)
  · intro wait hwait result hresult
    obtain ⟨hwait, hlabel⟩ := List.mem_filter.mp hwait
    exact List.mem_filter.mpr ⟨h.alert wait hwait result hresult, hlabel⟩

/-- Time wakes the waits that become due. -/
theorem pass (h : s.Sound) (gap : Nat) : (s.pass gap).Sound := by
  refine ⟨h.distinct, fun wait hwait result hresult => mem_ready_wake.mpr ?_⟩
  rcases result?_eq_some_iff.mp hresult with hcomplete | ⟨-, _, deadline, -, hdeadline, hdue, -⟩
  · exact .inl (h.alert wait hwait result (result?_eq_some_iff.mpr (.inl hcomplete)))
  · refine .inr (List.mem_map_of_mem (List.mem_filter.mpr ⟨hwait, ?_⟩))
    rw [hdeadline]
    exact decide_eq_true hdue

/-- Taking a call off the ready ones is harmless if it does not wait or cannot go on. -/
theorem erase (h : s.Sound) {label : Nat}
    (hasleep : ∀ wait ∈ s.waits, wait.label = label → wait.result? s.now s.promise = none) :
    Sound { s with ready := s.ready.erase label } := by
  refine ⟨h.distinct, fun wait hwait result hresult => ?_⟩
  refine (List.mem_erase_of_ne ?_).mpr (h.alert wait hwait result hresult)
  intro hlabel
  cases (hasleep wait hwait hlabel).symm.trans hresult

/-- A turn ends its wait or finds that it cannot go on. -/
theorem turnOf (h : s.Sound) (label : Nat) : (s.turnOf label).Sound := by
  by_cases hmem : ∃ wait ∈ s.waits, wait.label = label
  · obtain ⟨wait, hwait, rfl⟩ := hmem
    cases hresult : wait.result? s.now s.promise with
    | none =>
      rw [h.turnOf_of_asleep hwait hresult]
      refine h.erase fun other hother hlabel => ?_
      rw [h.eq_of_label hother hwait hlabel, hresult]
    | some result =>
      rw [h.turnOf_of_result hwait hresult]
      refine ⟨h.distinct.sublist (List.filter_sublist.map Wait.label), ?_⟩
      intro other hother result' hresult'
      obtain ⟨hother, hlabel⟩ := List.mem_filter.mp hother
      have hready := h.alert other hother result' hresult'
      exact List.mem_filter.mpr ⟨(List.mem_erase_of_ne (by simpa using hlabel)).mpr hready, hlabel⟩
  · have hnone : ∀ wait ∈ s.waits, wait.label ≠ label := fun wait hwait hlabel =>
      hmem ⟨wait, hwait, hlabel⟩
    rw [turnOf_of_notMem hnone]
    exact h.erase fun wait hwait hlabel => absurd hlabel (hnone wait hwait)

/-- Every action keeps waits distinct and awake. -/
theorem act (h : s.Sound) (action : Action α) : (s.act action).Sound := by
  cases action with
  | complete outcome => exact h.complete outcome
  | onComplete callback => exact h.onComplete callback
  | wait label bound =>
    rw [Session.act]
    split
    · exact h
    · rename_i hfree
      exact h.wait (by simpa using hfree) bound
  | cancel label => exact h.cancel label
  | pass gap => exact h.pass gap
  | turn label => exact h.turnOf label

end Sound

/-- In every run waits are distinct, and those that can go on are awake. -/
theorem sound_runOf (actions : List (Action α)) : (runOf actions).Sound := by
  induction actions using List.reverseRecOn with
  | nil => exact sound_empty
  | append_singleton actions action ih =>
    rw [runOf_append]
    exact ih.act action

/-! ### Where waits come from and how they end -/

/-- The run started the wait, with its deadline its bound after the time at which it did. -/
def Started (actions : List (Action α)) (wait : Wait) : Prop :=
  ∃ earlier later, actions = earlier ++ .wait wait.label wait.bound :: later ∧
    wait.deadline = wait.bound.map (Clock.after (runOf earlier).now)

/-- What a wait may end with after the actions: the first outcome that was given, or a timeout if
none was given until its deadline. -/
def Answers (actions : List (Action α)) (wait : Wait) (result : Outcome α) : Prop :=
  (completions actions).head? = some result ∨
    completions actions = [] ∧ ∃ bound deadline, wait.bound = some bound ∧
      wait.deadline = some deadline ∧ deadline ≤ (runOf actions).now * Clock.tick ∧
        result = .error (timeout bound)

/-- The answers of a wait after a run are the results that the session gives it. -/
theorem answers_iff {actions : List (Action α)} {wait : Wait} {result : Outcome α} :
    Answers actions wait result ↔
      wait.result? (runOf actions).now (runOf actions).promise = some result := by
  rw [result?_eq_some_iff, outcome_runOf, List.head?_eq_none_iff, Answers]

/-- The action is the turn of a wait, which ends with this answer. -/
structure Ends (actions : List (Action α)) (wait : Wait) (result : Outcome α)
    (action : Action α) : Prop where
  /-- The wait was pending and had its turn. -/
  pending : wait ∈ (runOf actions).waits
  /-- The action is the turn of the wait. -/
  turn : action = .turn wait.label
  /-- Its answer is one that it may have. -/
  answer : Answers actions wait result
  /-- It is reported, and no other. -/
  finished : (runOf (actions ++ [action])).finished =
    (runOf actions).finished ++ [(wait.label, result)]
  /-- It is taken off, and no other. -/
  others : ∀ other, other ∈ (runOf (actions ++ [action])).waits ↔
    other ∈ (runOf actions).waits ∧ other ≠ wait

/-- The turn of a wait that has an answer ends it. -/
theorem ends_of_answers {actions : List (Action α)} {wait : Wait} {result : Outcome α}
    (hwait : wait ∈ (runOf actions).waits) (hresult : Answers actions wait result) :
    Ends actions wait result (.turn wait.label) := by
  have hsound := sound_runOf actions
  have hturn := hsound.turnOf_of_result hwait (answers_iff.mp hresult)
  refine ⟨hwait, rfl, hresult, ?_, fun other => ?_⟩
  · rw [runOf_append, act, hturn]
  · rw [runOf_append, act, hturn]
    exact hsound.mem_filter_iff hwait

/-- An action reports nothing and takes off only what it cancels, or it ends one wait. -/
theorem act_cases (actions : List (Action α)) (action : Action α) :
    ((runOf (actions ++ [action])).finished = (runOf actions).finished ∧
      ∀ wait ∈ (runOf actions).waits, action ≠ .cancel wait.label →
        wait ∈ (runOf (actions ++ [action])).waits) ∨
      ∃ wait result, Ends actions wait result action := by
  have hsound := sound_runOf actions
  rw [runOf_append]
  cases action with
  | turn label =>
    by_cases hmem : ∃ wait ∈ (runOf actions).waits, wait.label = label
    · obtain ⟨wait, hwait, rfl⟩ := hmem
      cases hresult : wait.result? (runOf actions).now (runOf actions).promise with
      | none =>
        rw [act, hsound.turnOf_of_asleep hwait hresult]
        exact .inl ⟨rfl, fun other hother _ => hother⟩
      | some result => exact .inr ⟨wait, result, ends_of_answers hwait (answers_iff.mpr hresult)⟩
    · rw [act, turnOf_of_notMem fun wait hwait hlabel => hmem ⟨wait, hwait, hlabel⟩]
      exact .inl ⟨rfl, fun other hother _ => hother⟩
  | complete outcome =>
    refine .inl ?_
    rw [act]
    cases hcomplete : (runOf actions).promise.outcome with
    | some first =>
      rw [complete_of_some hcomplete]
      exact ⟨rfl, fun wait hwait _ => hwait⟩
    | none =>
      rw [complete_of_none hcomplete]
      exact ⟨rfl, fun wait hwait _ => hwait⟩
  | onComplete callback => exact .inl ⟨rfl, fun wait hwait _ => hwait⟩
  | wait label bound =>
    refine .inl ?_
    rw [act]
    split
    · exact ⟨rfl, fun wait hwait _ => hwait⟩
    · exact ⟨rfl, fun wait hwait _ => List.mem_append_left _ hwait⟩
  | cancel label =>
    refine .inl ⟨rfl, fun wait hwait hne => List.mem_filter.mpr ⟨hwait, ?_⟩⟩
    rw [bne_iff_ne]
    rintro rfl
    exact hne rfl
  | pass gap => exact .inl ⟨rfl, fun wait hwait _ => hwait⟩

/-- A wait after an action was there before, or the action started it. -/
theorem mem_waits_act {s : Session α} {action : Action α} {wait : Wait}
    (hwait : wait ∈ (s.act action).waits) :
    wait ∈ s.waits ∨ action = .wait wait.label wait.bound ∧
      wait.deadline = wait.bound.map (Clock.after s.now) := by
  cases action with
  | complete outcome =>
    rw [act] at hwait
    cases hcomplete : s.promise.outcome with
    | some first =>
      rw [complete_of_some hcomplete] at hwait
      exact .inl hwait
    | none =>
      rw [complete_of_none hcomplete] at hwait
      exact .inl hwait
  | onComplete callback => exact .inl hwait
  | wait label bound =>
    rw [act] at hwait
    split at hwait
    · exact .inl hwait
    · rcases List.mem_append.mp hwait with hwait | hwait
      · exact .inl hwait
      · obtain rfl := List.mem_singleton.mp hwait
        exact .inr ⟨rfl, rfl⟩
  | cancel label => exact .inl (List.mem_filter.mp hwait).1
  | pass gap => exact .inl hwait
  | turn label =>
    refine .inl ?_
    rw [act, turnOf] at hwait
    dsimp only at hwait
    split at hwait
    · exact hwait
    · split at hwait
      · exact (List.mem_filter.mp hwait).1
      · exact hwait

/-- Every pending wait was started by an action of the run. -/
theorem started_runOf (actions : List (Action α)) :
    ∀ wait ∈ (runOf actions).waits, Started actions wait := by
  induction actions using List.reverseRecOn with
  | nil => exact fun _ hwait => absurd hwait List.not_mem_nil
  | append_singleton actions action ih =>
    intro wait hwait
    rw [runOf_append] at hwait
    rcases mem_waits_act hwait with hwait | ⟨rfl, hdeadline⟩
    · obtain ⟨earlier, later, rfl, hdeadline⟩ := ih wait hwait
      exact ⟨earlier, later ++ [action], by simp, hdeadline⟩
    · exact ⟨actions, [], rfl, hdeadline⟩

/-! ### The course of a wait -/

/-- The wait that starts after the actions. -/
def begun (actions : List (Action α)) (label : Nat) (bound : Option Duration) : Wait :=
  ⟨label, bound, bound.map (Clock.after (runOf actions).now)⟩

/-- A wait under a free label is pending from then on, beside those that were, and gets a first
turn. -/
theorem begins_runOf (actions : List (Action α)) {label : Nat} (bound : Option Duration)
    (hfree : (runOf actions).isRunning label = false) :
    (∀ wait, wait ∈ (runOf (actions ++ [.wait label bound])).waits ↔
      wait ∈ (runOf actions).waits ∨ wait = begun actions label bound) ∧
    label ∈ (runOf (actions ++ [.wait label bound])).ready := by
  have hact : (runOf actions).act (.wait label bound) = (runOf actions).wait label bound :=
    if_neg (by simp [hfree])
  rw [runOf_append, hact]
  refine ⟨fun wait => ?_, List.mem_append_right _ List.mem_cons_self⟩
  rw [Session.wait, List.mem_append, List.mem_singleton, begun]

/-- A cancellation takes off the wait with its label and no other, and reports nothing. -/
theorem cancels_runOf (actions : List (Action α)) (label : Nat) :
    (∀ wait, wait ∈ (runOf (actions ++ [.cancel label])).waits ↔
      wait ∈ (runOf actions).waits ∧ wait.label ≠ label) ∧
    (runOf (actions ++ [.cancel label])).finished = (runOf actions).finished := by
  rw [runOf_append, act, cancel]
  refine ⟨fun wait => ?_, rfl⟩
  rw [List.mem_filter, bne_iff_ne]

/-- The wait is pending after the first actions and after each further one. -/
def Throughout (start : List (Action α)) (wait : Wait) (later : List (Action α)) : Prop :=
  ∀ part, part <+: later → wait ∈ (runOf (start ++ part)).waits

/-- What has become of a wait in the actions that follow its start. -/
inductive Fate (start : List (Action α)) (wait : Wait) (later : List (Action α)) : Prop
  /-- It has been pending ever since. -/
  | pending (through : Throughout start wait later)
  /-- It was pending until a cancellation took it off. -/
  | cancelled (before after : List (Action α))
      (parts : later = before ++ .cancel wait.label :: after)
      (through : Throughout start wait before)
  /-- It was pending until a turn of its own ended it with an answer that it may have. -/
  | answered (before after : List (Action α)) (result : Outcome α)
      (parts : later = before ++ .turn wait.label :: after)
      (through : Throughout start wait before)
      (ends : Ends (start ++ before) wait result (.turn wait.label))

/-- A wait that is pending after one more action was pending throughout. -/
theorem Throughout.append {start later : List (Action α)} {wait : Wait}
    (h : Throughout start wait later) {action : Action α}
    (hnext : wait ∈ (runOf (start ++ later ++ [action])).waits) :
    Throughout start wait (later ++ [action]) := by
  intro part hpart
  rcases List.prefix_concat_iff.mp hpart with rfl | hpart
  · rwa [← List.append_assoc]
  · exact h part hpart

/-- One more action leaves a pending wait pending, or cancels it, or is the turn that ends it. -/
theorem Throughout.fate {start later : List (Action α)} {wait : Wait}
    (h : Throughout start wait later) (action : Action α) :
    Fate start wait (later ++ [action]) := by
  have hwait : wait ∈ (runOf (start ++ later)).waits := h later (List.prefix_refl later)
  rcases act_cases (start ++ later) action with ⟨-, hkept⟩ | ⟨other, result, hends⟩
  · by_cases hcancel : action = .cancel wait.label
    · exact .cancelled later [] (by rw [hcancel]) h
    · exact .pending (h.append (hkept wait hwait hcancel))
  · by_cases hother : wait = other
    · subst hother
      obtain rfl := hends.turn
      exact .answered later [] result rfl h hends
    · exact .pending (h.append ((hends.others wait).mpr ⟨hwait, hother⟩))

/-- What has become of a wait stays so, whatever follows, unless it is still pending. -/
theorem Fate.append {start later : List (Action α)} {wait : Wait} (h : Fate start wait later)
    (action : Action α) : Fate start wait (later ++ [action]) := by
  cases h with
  | pending through => exact through.fate action
  | cancelled before after parts through =>
    exact .cancelled before (after ++ [action]) (by simp [parts]) through
  | answered before after result parts through ends =>
    exact .answered before (after ++ [action]) result (by simp [parts]) through ends

/-- A wait that was once pending still is, or was cancelled, or was answered. -/
theorem fate_of_mem {start : List (Action α)} {wait : Wait}
    (hwait : wait ∈ (runOf start).waits) (later : List (Action α)) : Fate start wait later := by
  induction later using List.reverseRecOn with
  | nil =>
    refine .pending fun part hpart => ?_
    obtain rfl := List.prefix_nil.mp hpart
    rwa [List.append_nil]
  | append_singleton later action ih => exact ih.append action

/-! ### Letting every call go on -/

/-- A turn takes its call off the ready ones and adds none. -/
theorem ready_turnOf_sublist (s : Session α) (label : Nat) :
    (s.turnOf label).ready.Sublist (s.ready.erase label) := by
  rw [turnOf]
  dsimp only
  split
  · exact List.Sublist.refl _
  · split
    · exact List.filter_sublist
    · exact List.Sublist.refl _

/-- Once every ready call has had its turn, none is left. -/
theorem ready_turns {ready : List Nat} {s : Session α} (h : s.ready.Sublist ready) :
    (ready.foldl turnOf s).ready = [] := by
  induction ready generalizing s with
  | nil => exact List.sublist_nil.mp h
  | cons label ready ih =>
    have herase : (s.ready.erase label).Sublist ready := by simpa using h.erase label
    exact ih ((ready_turnOf_sublist s label).trans herase)

/-- The turns of some calls, one after the other. -/
theorem runOf_turns (actions : List (Action α)) (labels : List Nat) :
    runOf (actions ++ labels.map .turn) = labels.foldl turnOf (runOf actions) := by
  rw [runOf, List.foldl_append, List.foldl_map]
  rfl

/-- A turn completes nothing. -/
theorem completions_turns (actions : List (Action α)) (labels : List Nat) :
    completions (actions ++ labels.map .turn) = completions actions := by
  simp [completions, List.filterMap_append, List.filterMap_map, Action.outcome?]

/-- Where no call can go on, nobody waits on a complete promise or past a deadline. -/
theorem quiet_runOf {actions : List (Action α)} (hquiet : (runOf actions).ready = []) {wait : Wait}
    (hwait : wait ∈ (runOf actions).waits) : completions actions = [] ∧
      ∀ deadline, wait.deadline = some deadline →
        (runOf actions).now * Clock.tick < deadline := by
  have hasleep (result : Outcome α) : ¬ Answers actions wait result := by
    intro hanswer
    have halert := (sound_runOf actions).alert wait hwait result (answers_iff.mp hanswer)
    rw [hquiet] at halert
    cases halert
  have hnone : completions actions = [] := by
    cases hcompletions : completions actions with
    | nil => rfl
    | cons outcome outcomes => exact absurd (.inl (by rw [hcompletions]; rfl)) (hasleep outcome)
  refine ⟨hnone, fun deadline hdeadline => ?_⟩
  by_contra hdue
  obtain ⟨earlier, later, -, hbound⟩ := started_runOf actions wait hwait
  rw [hdeadline] at hbound
  obtain ⟨bound, hbound, -⟩ := Option.map_eq_some_iff.mp hbound.symm
  exact hasleep _ (.inr ⟨hnone, bound, deadline, hbound, hdeadline, by omega, rfl⟩)

/-- Once every ready call has had its turn, none can go on, and nobody waits on a complete promise.
-/
theorem settles_runOf (actions : List (Action α)) :
    (runOf (actions ++ (runOf actions).ready.map .turn)).ready = [] ∧
      (completions actions ≠ [] →
        (runOf (actions ++ (runOf actions).ready.map .turn)).waits = []) := by
  have hquiet : (runOf (actions ++ (runOf actions).ready.map .turn)).ready = [] := by
    rw [runOf_turns]
    exact ready_turns (List.Sublist.refl _)
  refine ⟨hquiet, fun hcomplete => List.eq_nil_iff_forall_not_mem.mpr fun wait hwait => ?_⟩
  obtain ⟨hnone, -⟩ := quiet_runOf hquiet hwait
  exact hcomplete ((completions_turns actions _).symm.trans hnone)

end BeeProtocol.Promise.Session
