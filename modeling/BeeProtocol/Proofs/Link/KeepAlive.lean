import BeeProtocol.Proofs.Link.Exchanges
import BeeProtocol.Proofs.Link.Handshaking
import BeeProtocol.Proofs.Link.Lifecycle
import BeeProtocol.Proofs.Link.Steadiness

/-!
# The task that sends pings

A task that nobody has called for sends pings. There is never more than one that was not told to
end: it is started by an accepted handshake, which ends the one before, and it is ended when the
link is closed, or was given up and is not used any more. On a closed link it writes nothing.
-/

namespace BeeProtocol

/-- Whether a task that nobody has called for has the writer and has not written its frame. -/
def Task.isAboutToPing (task : Task) : Bool :=
  task.label.isNone && !task.isAborted && match task.stage with
    | .sending _ (.holding _) => true
    | _ => false

/-- Whether a task that nobody has called for has still to begin. -/
def Task.isUnbegun (task : Task) : Bool :=
  task.label.isNone && !task.isAborted && match task.stage with
    | .called _ => true
    | _ => false

namespace Link

variable {s next : Link} {t u : Nat}

/-! ### At most one task sends pings -/

/-- Only the task that was started last sends pings, and it is one of the tasks. -/
structure Manned (s : Link) : Prop where
  /-- Who sends pings is the task that was started last. -/
  alone : ∀ u, s.IsPinger u → s.keepAlive = some u
  /-- The task that was started last is there. -/
  known : ∀ u, s.keepAlive = some u → u < s.tasks.length

namespace Manned

/-- After a steady change the same task sends pings. -/
theorem steady (h : s.Manned) (hsteady : s.Steady t next) : next.Manned where
  alone u hpinger := hsteady.keepAlive.trans (h.alone u (hsteady.isPinger_iff.mp hpinger))
  known u hkey := by
    rw [hsteady.length]
    exact h.known u (hsteady.keepAlive.symm.trans hkey)

/-- Nobody sends pings once the task that does was ended. -/
theorem stops (h : s.Manned) (hstops : s.Stops next) : next.Manned where
  alone u hpinger := by
    obtain ⟨hbefore, hother⟩ := hstops.pingers u hpinger
    exact absurd (h.alone u hbefore) hother
  known u hkey := by cases hstops.keepAlive.symm.trans hkey

/-- The new task is the only one to send pings, as the earlier one was ended. -/
theorem starts {period : Duration} (h : s.Manned) (hstarts : s.Starts period next) :
    next.Manned where
  alone u hpinger := by
    rcases hstarts.pingers u hpinger with rfl | ⟨hbefore, hother⟩
    · exact hstarts.keepAlive
    · exact absurd (h.alone u hbefore) hother
  known u hkey := by
    rw [hstarts.length, ← Option.some.inj (hstarts.keepAlive.symm.trans hkey)]
    exact Nat.lt_succ_self _

end Manned

/-! ### What an action does -/

/-- What comes from outside: calls may be added, and time may pass. -/
structure Adds (s : Link) (action : Action) (next : Link) : Prop where
  /-- No time passes, or nothing else happens. -/
  now : next.now = s.now ∨ ∃ gap, action = .pass gap ∧ next = s.pass gap
  /-- The clock does not go back. -/
  later : s.now ≤ next.now
  /-- The settings are the same. -/
  config : next.config = s.config
  /-- The owner is the same. -/
  isHeld : next.isHeld = s.isHeld
  /-- The same task sends pings. -/
  keepAlive : next.keepAlive = s.keepAlive
  /-- Tasks that are added report to somebody. -/
  tasks : ∃ more, next.tasks = s.tasks ++ more ∧ ∀ task ∈ more, task.label.isSome
  /-- Tasks that were woken still are. -/
  woken : ∀ u, .task u ∈ s.ready → .task u ∈ next.ready

variable {action : Action}

/-- A change of what does not show, with calls that are added, and then of who is woken. -/
theorem Adds.of_changed {changed : Link} {more : List Task} (h : changed.Wakes next)
    (hsetting : (changed.now, changed.config, changed.isHeld, changed.keepAlive, changed.ready) =
      (s.now, s.config, s.isHeld, s.keepAlive, s.ready))
    (htasks : changed.tasks = s.tasks ++ more) (hmore : ∀ task ∈ more, task.label.isSome) :
    s.Adds action next := by
  obtain ⟨ready, rfl, hkept⟩ := h
  simp only [Prod.mk.injEq] at hsetting
  obtain ⟨hnow, hconfig, hheld, hkeep, hready⟩ := hsetting
  refine ⟨.inl hnow, Nat.le_of_eq hnow.symm, hconfig, hheld, hkeep, ⟨more, htasks, hmore⟩, ?_⟩
  intro u hmem
  exact hkept _ (by rwa [hready])

/-- A change that leaves the calls as they are adds none. -/
theorem Adds.of_same {changed : Link} (h : changed.Wakes next)
    (hsetting : (changed.now, changed.config, changed.isHeld, changed.keepAlive, changed.ready) =
      (s.now, s.config, s.isHeld, s.keepAlive, s.ready))
    (htasks : changed.tasks = s.tasks) : s.Adds action next :=
  .of_changed h hsetting (htasks.trans (List.append_nil _).symm) nofun

/-- Nothing need be added. -/
theorem Adds.refl (s : Link) (action : Action) : s.Adds action s := .of_same (.refl s) rfl rfl

/-- A call that somebody makes is added. -/
theorem adds_addTask (label : Nat) (stage : Stage) {opened : Link}
    (hsetting : (opened.now, opened.config, opened.isHeld, opened.keepAlive, opened.ready) =
      (s.now, s.config, s.isHeld, s.keepAlive, s.ready))
    (htasks : opened.tasks = s.tasks) : s.Adds action (opened.addTask (some label) stage) := by
  refine .of_changed (wakes_wake _ _) hsetting (congrArg (· ++ [_]) htasks) fun task hmem => ?_
  rw [List.mem_singleton.mp hmem]
  rfl

/-- Allocating ids adds nothing to the tasks. -/
theorem adds_nextIds (s : Link) (count : Nat) : s.Adds action (s.nextIds count).2 := by
  obtain ⟨lastId, hallocated⟩ : ∃ lastId, (s.nextIds count).2 = { s with lastId := lastId } := by
    induction s, count using nextIds.induct with
    | case1 s => exact ⟨s.lastId, rfl⟩
    | case2 s => exact ⟨_, rfl⟩
    | case3 s count ih => exact ih
  rw [hallocated]
  exact .of_same (.refl _) rfl rfl

/-- What comes from outside adds calls at most. -/
theorem adds_act (s : Link) (houtside : action.releases = false) :
    s.Adds action (s.act action) := by
  cases action with
  | arrive item =>
    dsimp only [act, arrive]
    split
    · exact .refl s _
    · split
      · exact .of_same (wakes_wake _ _) rfl rfl
      · exact .of_same (.refl _) rfl rfl
  | setMode mode =>
    dsimp only [act, setMode]
    split
    · exact .of_same (wakes_wake _ _) rfl rfl
    · exact .of_same (.refl _) rfl rfl
  | call label call hplain => exact adds_addTask label _ rfl rfl
  | statement label frame id capacity bound => exact adds_addTask label _ rfl rfl
  | reply label frame kind => exact adds_addTask label _ rfl rfl
  | pull label channel pull bound =>
    dsimp only [act, startPull]
    split
    · exact .refl s _
    · exact adds_addTask label _ rfl rfl
  | watch label reply bound => exact adds_addTask label _ rfl rfl
  | next channel =>
    dsimp only [act, Link.next]
    split
    · exact .refl s _
    · exact .of_same (s.wakes_changeChannel channel _) rfl rfl
  | dropResponse channel => exact .of_same (s.wakes_changeChannel channel _) rfl rfl
  | allocate count => exact s.adds_nextIds count
  | markOpen =>
    dsimp only [act, markOpen]
    split <;> exact .of_same (.refl _) rfl rfl
  | pass gap =>
    have hpassed : Wakes { s with now := s.now + gap } (s.pass gap) := by
      unfold pass
      exact wakes_wakeTasks _ _
    obtain ⟨ready, hpass, hkept⟩ := hpassed
    refine ⟨.inr ⟨gap, rfl, rfl⟩, ?_, ?_, ?_, ?_, ⟨[], ?_, nofun⟩, fun u hmem => ?_⟩
    all_goals
      dsimp only [act]
      rw [hpass]
    · exact Nat.le_add_right _ _
    · exact (List.append_nil _).symm
    · exact hkept _ hmem
  | _ => cases houtside

/-- Who does something with a link before it is closed if nobody uses it any more: somebody who does
not send pings, its owner, or a task in its turn. -/
inductive Does (s : Link) (action : Action) : Prop
  | adds (h : s.Adds action (s.act action))
  | beside {next : Link} {t : Nat} (hother : ¬ s.IsPinger t) (h : s.Steady t next)
    (hact : s.act action = next.releaseUnused)
  | givesAway (hact : s.act action = ({ s with isHeld := false } : Link).releaseUnused)
  | turns {next : Link} {t : Nat} (haction : action = .turn (.task t)) (h : s.Tends t next)
    (hact : s.act action = next.releaseUnused)

/-- Every action is done by one of these. -/
theorem does_act (s : Link) (action : Action) : s.Does action := by
  cases houtside : action.releases with
  | false => exact .adds (s.adds_act houtside)
  | true =>
    cases action with
    | cancel label =>
      cases hfind :
          s.tasks.findIdx? fun task => task.label == some label && !task.stage.isEnded with
      | none =>
        refine .adds ?_
        dsimp only [act, cancel?]
        rw [hfind]
        exact .refl s _
      | some t =>
        obtain ⟨hlt, hlabel, -⟩ := List.findIdx?_eq_some_iff_getElem.mp hfind
        have htask : s.tasks[t]? = some s.tasks[t] := List.getElem?_eq_getElem hlt
        have hother : ¬ s.IsPinger t := by
          rintro ⟨stage, hpinger⟩
          rw [Option.some.inj (htask.symm.trans hpinger)] at hlabel
          cases hlabel
        have hdropped := s.steady_dropTask t s.tasks[t].stage
        let next : Link :=
          { s.dropTask t s.tasks[t].stage with
            ready := (s.dropTask t s.tasks[t].stage).ready.filter (· != Actor.task t) }
        have hnext : s.Steady t next := by
          refine ⟨hdropped.setting, hdropped.others, fun u hu hmem => ?_⟩
          exact List.mem_filter.mpr ⟨hdropped.woken u hu hmem, by simpa using hu⟩
        refine .beside hother hnext ?_
        dsimp only [act, cancel?]
        rw [hfind, Option.bind_some, htask]
        rfl
    | giveAway => exact .givesAway rfl
    | turn actor =>
      cases actor with
      | reader =>
        have hnobody : ¬ s.IsPinger s.tasks.length := fun h => Nat.lt_irrefl _ h.lt
        exact .beside hnobody (s.steady_turned_reader _) (s.turnOf_eq_release .reader)
      | task t => exact .turns rfl (s.tends_turned t) (s.turnOf_eq_release (.task t))
    | _ => cases houtside

/-! ### A link that nobody uses -/

/-- The owner has given the link up, and none of its calls uses it. -/
def Unused (s : Link) : Prop := s.isHeld = false ∧ s.isInUse = false

/-- A link is in use while a call may need the writer for something else than a ping. -/
theorem isInUse_eq (s : Link) : s.isInUse =
    s.roster.stages.any fun stage => stage.usesWriter && !stage.isPinging := by
  simp [isInUse, roster, List.any_map, Function.comp_def]

/-- On a link that nobody uses no task sends pings any more. It is closed, unless a ping that is
under way has to be ended first. -/
def Relinquishes (s : Link) : Prop :=
  s.Unused → s.keepAlive = none ∧ (s.isClosed ∨ ∃ stage ∈ s.roster.stages, stage.isPinging)

/-- A link is closed at the end of an action if nobody uses it any more. -/
theorem unused_or_releaseUnused (s : Link) :
    ¬ s.Unused ∧ s.releaseUnused = s ∨
      s.releaseUnused.Unused ∧ s.releaseUnused.Relinquishes ∧
        (s.releaseUnused = s.stopKeepAlive ∨
          (∀ stage ∈ s.roster.stages, stage.isPinging = false) ∧
            s.releaseUnused = s.stopKeepAlive.fail) := by
  by_cases hunused : s.Unused
  · right
    have hstops := s.stops_stopKeepAlive
    have hfail := steady_fail s.stopKeepAlive 0
    have hrelease : s.releaseUnused =
        if s.stopKeepAlive.tasks.any (·.stage.isPinging) then s.stopKeepAlive
        else s.stopKeepAlive.fail := by
      unfold releaseUnused
      rw [if_neg (by simp [hunused.1, hunused.2])]
    have hinUse : s.releaseUnused.isInUse = false := by
      rw [isInUse_eq, stages_releaseUnused, ← isInUse_eq]
      exact hunused.2
    rw [hrelease] at hinUse ⊢
    split
    · rename_i hpings
      rw [if_pos hpings] at hinUse
      obtain ⟨task, hmem, hping⟩ := List.any_eq_true.mp hpings
      refine ⟨⟨hstops.isHeld.trans hunused.1, hinUse⟩, fun _ => ⟨hstops.keepAlive, .inr ?_⟩,
        .inl rfl⟩
      exact ⟨task.stage, List.mem_map_of_mem hmem, hping⟩
    · rename_i hquiet
      rw [if_neg hquiet] at hinUse
      have hnobody : ∀ stage ∈ s.stopKeepAlive.roster.stages, stage.isPinging = false := by
        simpa [roster] using hquiet
      rw [roster_stopKeepAlive] at hnobody
      refine ⟨⟨hfail.isHeld.trans (hstops.isHeld.trans hunused.1), hinUse⟩, fun _ => ?_,
        .inr ⟨hnobody, rfl⟩⟩
      exact ⟨hfail.keepAlive.trans hstops.keepAlive, .inl (isClosed_fail _)⟩
  · left
    refine ⟨hunused, if_pos ?_⟩
    unfold Unused at hunused
    cases hheld : s.isHeld with
    | true => rfl
    | false => simpa [hheld] using hunused

/-- A link that nobody uses is left with no task that sends pings. -/
theorem Manned.releaseUnused (h : s.Manned) : s.releaseUnused.Manned := by
  rcases s.unused_or_releaseUnused with ⟨-, hsame⟩ | ⟨-, -, hstopped | ⟨-, hfailed⟩⟩
  · rwa [hsame]
  · rw [hstopped]
    exact h.stops s.stops_stopKeepAlive
  · rw [hfailed]
    exact (h.stops s.stops_stopKeepAlive).steady (steady_fail _ 0)

/-- A link that was released sends no pings if nobody uses it. -/
theorem relinquishes_releaseUnused (s : Link) : s.releaseUnused.Relinquishes := by
  rcases s.unused_or_releaseUnused with ⟨hused, hsame⟩ | ⟨-, hrelinquishes, -⟩
  · rw [hsame]
    exact fun hunused => absurd hunused hused
  · exact hrelinquishes

/-- No task that is added sends pings. -/
theorem Adds.isPinger_iff (h : s.Adds action next) : next.IsPinger u ↔ s.IsPinger u := by
  obtain ⟨more, htasks, hmore⟩ := h.tasks
  unfold IsPinger
  rw [htasks]
  refine exists_congr fun stage => ⟨fun htask => ?_, fun htask => ?_⟩
  · rcases Nat.lt_or_ge u s.tasks.length with hlt | hge
    · rwa [List.getElem?_append_left hlt] at htask
    · rw [List.getElem?_append_right hge] at htask
      cases hmore _ (List.mem_of_getElem? htask)
  · rwa [List.getElem?_append_left (List.getElem?_eq_some_iff.mp htask).1]

/-- Calls that are added leave the task that sends pings alone. -/
theorem Manned.adds (h : s.Manned) (hadds : s.Adds action next) : next.Manned where
  alone u hpinger := hadds.keepAlive.trans (h.alone u (hadds.isPinger_iff.mp hpinger))
  known u hkey := by
    obtain ⟨more, htasks, -⟩ := hadds.tasks
    have hlt := h.known u (hadds.keepAlive.symm.trans hkey)
    rw [htasks, List.length_append]
    omega

/-- The turn of a call leaves at most the task that was started last. -/
theorem Manned.tends (h : s.Manned) (htends : s.Tends t next) : next.Manned := by
  cases htends with
  | steady hsteady => exact h.steady hsteady
  | stops hbefore hstops hafter => exact ((h.steady hbefore).stops hstops).steady hafter
  | starts haccepts hbefore hstarts hafter =>
    exact ((h.steady hbefore).starts hstarts).steady hafter

/-- Whatever is done with a link, only the task that was started last sends pings. -/
theorem Manned.act (h : s.Manned) (action : Action) : (s.act action).Manned := by
  cases s.does_act action with
  | adds hadds => exact h.adds hadds
  | beside hother hsteady hact =>
    rw [hact]
    exact (h.steady hsteady).releaseUnused
  | givesAway hact =>
    rw [hact]
    exact Manned.releaseUnused ⟨h.alone, h.known⟩
  | turns haction htends hact =>
    rw [hact]
    exact (h.tends htends).releaseUnused

/-- Whatever is done, a link that nobody uses sends no pings. -/
theorem Relinquishes.act (h : s.Relinquishes) (action : Action) : (s.act action).Relinquishes := by
  cases s.does_act action with
  | adds hadds =>
    obtain ⟨more, htasks, -⟩ := hadds.tasks
    rintro ⟨hheld, hinUse⟩
    have hunused : s.Unused := by
      refine ⟨hadds.isHeld.symm.trans hheld, ?_⟩
      unfold isInUse at hinUse
      rw [htasks, List.any_append, Bool.or_eq_false_iff] at hinUse
      exact hinUse.1
    obtain ⟨hnone, hclosed | ⟨stage, hmem, hping⟩⟩ := h hunused
    · exact ⟨hadds.keepAlive.trans hnone, .inl ((s.act_moves action).isClosed hclosed)⟩
    · refine ⟨hadds.keepAlive.trans hnone, .inr ⟨stage, ?_, hping⟩⟩
      change stage ∈ (s.act action).tasks.map (·.stage)
      rw [htasks, List.map_append]
      exact List.mem_append_left _ hmem
  | beside hother hsteady hact => exact hact ▸ relinquishes_releaseUnused _
  | givesAway hact => exact hact ▸ relinquishes_releaseUnused _
  | turns haction htends hact => exact hact ▸ relinquishes_releaseUnused _

/-- In every run only the task that was started last sends pings. -/
theorem manned_runOf (config : Config) (actions : List Action) : (runOf config actions).Manned := by
  induction actions using List.reverseRecOn with
  | nil => exact ⟨fun u hpinger => absurd hpinger.lt (Nat.not_lt_zero u), nofun⟩
  | append_singleton actions action ih =>
    rw [runOf_concat]
    exact ih.act action

/-- In every run a link that nobody uses sends no pings. -/
theorem relinquishes_runOf (config : Config) (actions : List Action) :
    (runOf config actions).Relinquishes := by
  induction actions using List.reverseRecOn with
  | nil => exact fun hunused => by cases hunused.1
  | append_singleton actions action ih =>
    rw [runOf_concat]
    exact ih.act action

/-! ### When a task that sends pings is started and ended -/

/-- A link that is released has an owner if it had one before. -/
theorem releaseUnused_isHeld (s : Link) : s.releaseUnused.isHeld = s.isHeld := by
  have hstops := s.stops_stopKeepAlive
  rcases s.unused_or_releaseUnused with ⟨-, hsame⟩ | ⟨-, -, hstopped | ⟨-, hfailed⟩⟩
  · rw [hsame]
  · rw [hstopped, hstops.isHeld]
  · rw [hfailed, (steady_fail _ 0).isHeld, hstops.isHeld]

/-- The release of a link takes no time. -/
theorem releaseUnused_now (s : Link) : s.releaseUnused.now = s.now := by
  have hstops := s.stops_stopKeepAlive
  rcases s.unused_or_releaseUnused with ⟨-, hsame⟩ | ⟨-, -, hstopped | ⟨-, hfailed⟩⟩
  · rw [hsame]
  · rw [hstopped, hstops.now]
  · rw [hfailed, (steady_fail _ 0).now, hstops.now]

/-- A link that is released has the same task for its pings, or none. -/
theorem keepAlive_releaseUnused (s : Link) :
    s.releaseUnused.keepAlive = none ∨ s.releaseUnused.keepAlive = s.keepAlive := by
  rcases s.unused_or_releaseUnused with ⟨-, hsame⟩ | ⟨hunused, hrelinquishes, -⟩
  · rw [hsame]
    exact .inr rfl
  · exact .inl (hrelinquishes hunused).1

/-- A task that sends pings is started only by a handshake that is accepted, and only if there is an
interval for it. -/
theorem keepAlive_act (s : Link) (action : Action) :
    (s.act action).keepAlive = none ∨ (s.act action).keepAlive = s.keepAlive ∨
      s.acceptsAt action ∧
        ∃ period, s.config.keepAliveInterval = some period ∧ period.nanos ≠ 0 := by
  have hrelease (next : Link) (hnext : next.keepAlive = none ∨ next.keepAlive = s.keepAlive) :
      next.releaseUnused.keepAlive = none ∨ next.releaseUnused.keepAlive = s.keepAlive := by
    rcases next.keepAlive_releaseUnused with hnone | hsame
    · exact .inl hnone
    · rwa [hsame]
  cases s.does_act action with
  | adds hadds => exact .inr (.inl hadds.keepAlive)
  | beside hother hsteady hact =>
    rw [hact]
    exact (hrelease _ (.inr hsteady.keepAlive)).imp_right .inl
  | givesAway hact =>
    rw [hact]
    exact (hrelease { s with isHeld := false } (.inr rfl)).imp_right .inl
  | turns haction htends hact =>
    subst haction
    rw [hact]
    cases htends with
    | steady hsteady => exact (hrelease _ (.inr hsteady.keepAlive)).imp_right .inl
    | stops hbefore hstops hafter =>
      exact (hrelease _ (.inl (hafter.keepAlive.trans hstops.keepAlive))).imp_right .inl
    | @starts _ _ period haccepts hbefore hstarts hafter =>
      obtain ⟨hinterval, hpositive⟩ := hstarts.interval
      rw [hbefore.config] at hinterval
      exact .inr (.inr ⟨haccepts, period, hinterval, hpositive⟩)

/-! ### Rules for a run -/

/-- Whether all actions of a run keep to a rule. -/
def obeys (rule : Link → Action → Bool) (s : Link) : List Action → Bool
  | [] => true
  | action :: actions => rule s action && (s.act action).obeys rule actions

/-- A run keeps to a rule if each of its two parts does. -/
theorem obeys_append (rule : Link → Action → Bool) (s : Link) (before after : List Action) :
    s.obeys rule (before ++ after) =
      (s.obeys rule before && (before.foldl act s).obeys rule after) := by
  induction before generalizing s with
  | nil => rfl
  | cons action before ih =>
    rw [List.cons_append, obeys, ih, obeys, Bool.and_assoc]
    rfl

/-- Every run keeps to the rule that allows everything. -/
theorem obeys_true (s : Link) (actions : List Action) : s.obeys (fun _ _ => true) actions := by
  induction actions generalizing s with
  | nil => rfl
  | cons action actions ih => exact ih (s.act action)

/-- A call is started only as long as the owner holds the link. -/
def callsWhileHeld (s : Link) : Action → Bool
  | .call _ _ _ => s.isHeld
  | .statement _ _ _ _ _ => s.isHeld
  | .reply _ _ _ => s.isHeld
  | _ => true

/-- No time passes before a task that nobody has called for has begun. -/
def beginsInTime (s : Link) : Action → Bool
  | .pass _ => s.tasks.all fun task => !task.isUnbegun
  | _ => true

/-- Whether an action is the turn of a task. -/
def Action.isTurnOf (t : Nat) : Action → Bool
  | .turn (.task u) => u == t
  | _ => false

/-- A ping that gets the writer is written before anything else is done. -/
def pingsAtOnce (s : Link) (action : Action) : Bool :=
  s.tasks.zipIdx.all fun (task, t) => !task.isAboutToPing || action.isTurnOf t

/-! ### A link stays unused -/

/-- A link that was given away is never taken back. -/
theorem isHeld_act (s : Link) (action : Action) (h : s.isHeld = false) :
    (s.act action).isHeld = false := by
  cases s.does_act action with
  | adds hadds => exact hadds.isHeld.trans h
  | beside hother hsteady hact => rw [hact, releaseUnused_isHeld, hsteady.isHeld, h]
  | givesAway hact => rw [hact, releaseUnused_isHeld]
  | turns haction htends hact => rw [hact, releaseUnused_isHeld, htends.isHeld, h]

/-- No call comes to use a link again that its owner has given up. -/
theorem Unused.act (h : s.Unused) (hrule : s.callsWhileHeld action) : (s.act action).Unused := by
  refine ⟨s.isHeld_act action h.1, ?_⟩
  by_contra huses
  have hidle := h.2
  rw [isInUse_eq, List.any_eq_false] at hidle
  rw [Bool.not_eq_false, isInUse_eq, List.any_eq_true] at huses
  obtain ⟨new, hmem, hnew⟩ := huses
  obtain ⟨u, hstage⟩ := List.mem_iff_getElem?.mp hmem
  cases s.comes_act hstage with
  | begun hnone hbegins =>
    cases action with
    | call label call hplain => cases h.1.symm.trans hrule
    | statement label frame id capacity bound => cases h.1.symm.trans hrule
    | reply label frame kind => cases h.1.symm.trans hrule
    | pull label channel pull bound =>
      obtain ⟨key, call, rfl⟩ := hbegins
      cases hnew
    | watch label reply bound =>
      obtain ⟨deadline, rfl⟩ := hbegins
      cases hnew
    | turn actor =>
      cases actor with
      | reader => cases hbegins
      | task t =>
        obtain ⟨period, rfl⟩ := hbegins
        cases hnew
    | _ => cases hbegins
  | kept hbefore => exact hidle new (List.mem_of_getElem? hbefore) hnew
  | dropped hended =>
    subst hended
    cases hnew
  | @stepped label stage haction htask hcourse =>
    have hbefore := hidle stage (List.mem_of_getElem? (stage_of_task htask))
    cases hcourse with
    | wait => exact hbefore hnew
    | queue hwrites hsize => cases hwrites <;> exact hbefore rfl
    | close => exact hbefore rfl
    | @enter purpose => cases purpose <;> first | exact hbefore rfl | cases hnew
    | @encode purpose => cases purpose <;> first | exact hbefore rfl | cases hnew
    | await => exact hbefore rfl
    | _ => cases hnew

/-! ### Pings that are written -/

/-- How many pings an action puts into the out-buffer for tasks that nobody has called for. -/
def pingsAt (s : Link) (action : Action) : Nat :=
  (s.entryAt action).written.countP fun entry =>
    entry.2 == pingFrame && (s.tasks[entry.1]?).any (·.label.isNone)

/-- How many pings are put into the out-buffer in a run for tasks that nobody has called for. -/
def pingsIn (s : Link) : List Action → Nat
  | [] => 0
  | action :: actions => s.pingsAt action + (s.act action).pingsIn actions

/-- A task is about to send a ping when it has the writer and nobody has called for it. -/
theorem isAboutToPing_iff {task : Task} : task.isAboutToPing ↔
    ∃ purpose frame, task = ⟨none, .sending purpose (.holding frame), false⟩ := by
  obtain ⟨label, stage, isAborted⟩ := task
  constructor
  · intro h
    simp only [Task.isAboutToPing, Bool.and_eq_true, Option.isNone_iff_eq_none,
      Bool.not_eq_true'] at h
    obtain ⟨⟨rfl, rfl⟩, hholds⟩ := h
    split at hholds
    · exact ⟨_, _, rfl⟩
    · cases hholds
  · rintro ⟨purpose, frame, hsame⟩
    rw [hsame]
    rfl

/-- Only a task that is about to writes a ping, and in its own turn. -/
theorem isAboutToPing_of_pingsAt (h : s.pingsAt action ≠ 0) :
    ∃ t task, action = .turn (.task t) ∧ s.tasks[t]? = some task ∧ task.isAboutToPing := by
  obtain ⟨⟨t, frame⟩, hmem, hping⟩ := List.countP_pos_iff.mp (Nat.pos_of_ne_zero h)
  obtain ⟨haction, label, purpose, htask⟩ := task_of_written hmem
  obtain ⟨-, rfl⟩ : frame = pingFrame ∧ label = none := by simpa [htask] using hping
  exact ⟨t, _, haction, htask, isAboutToPing_iff.mpr ⟨purpose, frame, rfl⟩⟩

/-- Without a task for it no ping is sent. -/
theorem Manned.pingsAt_of_none (h : s.Manned) (hnone : s.keepAlive = none) (action : Action) :
    s.pingsAt action = 0 := by
  by_contra hpings
  obtain ⟨t, task, -, htask, hholds⟩ := isAboutToPing_of_pingsAt hpings
  obtain ⟨purpose, frame, rfl⟩ := isAboutToPing_iff.mp hholds
  cases hnone.symm.trans (h.alone t ⟨_, htask⟩)

/-- What keeps a link from writing pings, as long as a rule is kept to. -/
theorem pingsIn_eq_zero {rule : Link → Action → Bool} (P : Link → Prop)
    (hzero : ∀ s action, P s → s.pingsAt action = 0)
    (hstep : ∀ s action, P s → rule s action → P (s.act action)) (h : P s) {actions : List Action}
    (hobeys : s.obeys rule actions) : s.pingsIn actions = 0 := by
  induction actions generalizing s with
  | nil => rfl
  | cons action actions ih =>
    obtain ⟨hrule, hrest⟩ := Bool.and_eq_true_iff.mp hobeys
    rw [pingsIn, hzero s action h, ih (hstep s action h hrule) hrest]

/-- Without an interval no ping is ever written. -/
theorem pingsIn_of_no_interval (config : Config)
    (hnone : ∀ period, config.keepAliveInterval = some period → period.nanos = 0)
    (actions : List Action) : (fresh config).pingsIn actions = 0 := by
  refine pingsIn_eq_zero (fun s => s.Manned ∧ s.keepAlive = none ∧ s.config = config)
    (fun s action h => h.1.pingsAt_of_none h.2.1 action) ?_
    ⟨manned_runOf config [], rfl, rfl⟩ (obeys_true _ actions)
  rintro s action ⟨hmanned, hkeep, hconfig⟩ -
  refine ⟨hmanned.act action, ?_, (s.config_act action).trans hconfig⟩
  rcases s.keepAlive_act action with hnone' | hsame | ⟨-, period, hinterval, hpositive⟩
  · exact hnone'
  · exact hsame.trans hkeep
  · rw [hconfig] at hinterval
    exact absurd (hnone period hinterval) hpositive

/-- Before a handshake is accepted no ping is written. -/
theorem pingsIn_of_unaccepted (config : Config) {actions : List Action}
    (hnone : (fresh config).obeys (fun s action => !s.acceptsAt action) actions) :
    (fresh config).pingsIn actions = 0 := by
  refine pingsIn_eq_zero (fun s => s.Manned ∧ s.keepAlive = none)
    (fun s action h => h.1.pingsAt_of_none h.2 action) ?_ ⟨manned_runOf config [], rfl⟩ hnone
  rintro s action ⟨hmanned, hkeep⟩ hrule
  refine ⟨hmanned.act action, ?_⟩
  rcases s.keepAlive_act action with hnone' | hsame | ⟨haccepts, -⟩
  · exact hnone'
  · exact hsame.trans hkeep
  · simp [haccepts] at hrule

/-- After a link was given up and is not used any more no ping is written. -/
theorem pingsIn_of_unused (hmanned : s.Manned) (hrelinquishes : s.Relinquishes)
    (hunused : s.Unused) {actions : List Action} (hheld : s.obeys callsWhileHeld actions) :
    s.pingsIn actions = 0 := by
  refine pingsIn_eq_zero (fun s => s.Manned ∧ s.Relinquishes ∧ s.Unused) ?_ ?_
    ⟨hmanned, hrelinquishes, hunused⟩ hheld
  · rintro s action ⟨hmanned, hrelinquishes, hunused⟩
    exact hmanned.pingsAt_of_none (hrelinquishes hunused).1 action
  · rintro s action ⟨hmanned, hrelinquishes, hunused⟩ hrule
    exact ⟨hmanned.act action, hrelinquishes.act action, hunused.act hrule⟩

/-! ### A closed link -/

/-- The release of a link starts no task that sends pings. -/
theorem isPinger_releaseUnused (h : s.releaseUnused.IsPinger u) : s.IsPinger u := by
  rcases s.unused_or_releaseUnused with ⟨-, hsame⟩ | ⟨-, -, hstopped | ⟨-, hfailed⟩⟩
  · rwa [hsame] at h
  · rw [hstopped] at h
    exact (s.stops_stopKeepAlive.pingers u h).1
  · rw [hfailed, (steady_fail _ 0).isPinger_iff] at h
    exact (s.stops_stopKeepAlive.pingers u h).1

/-- A task that sends pings has done so before, or it was started just now. -/
theorem isPinger_of_act (h : (s.act action).IsPinger u) : s.IsPinger u ∨ s.tasks.length ≤ u := by
  cases s.does_act action with
  | adds hadds => exact .inl (hadds.isPinger_iff.mp h)
  | beside hother hsteady hact =>
    rw [hact] at h
    exact .inl (hsteady.isPinger_iff.mp (isPinger_releaseUnused h))
  | givesAway hact =>
    rw [hact] at h
    exact .inl (isPinger_releaseUnused (s := { s with isHeld := false }) h)
  | turns haction htends hact =>
    rw [hact] at h
    exact htends.isPinger (isPinger_releaseUnused h)

/-- A call that still has its frame to write after a turn has not closed the link. -/
theorem isClosed_sendTurn {purpose purpose' : Purpose} {step : SendStep} {frame : Frame}
    (hunwritten : step ≠ .flushing)
    (h : (s.sendTurn t purpose step).1.roster.stages[t]? =
      some (.sending purpose' (.holding frame))) :
    (s.sendTurn t purpose step).1.isClosed = s.isClosed := by
  have hother (next : Link) (new : Stage) (hnew : new ≠ .sending purpose' (.holding frame)) :
      (next.roster.stages.set t new)[t]? ≠ some (.sending purpose' (.holding frame)) := by
    rw [List.getElem?_set_self']
    cases next.roster.stages[t]? <;> simp [hnew]
  have hfails (next : Link) (reason : ProtocolError) :
      (next.failWrite t purpose reason).roster.stages[t]? ≠
        some (.sending purpose' (.holding frame)) := by
    rw [stages_failWrite]
    exact hother next .ended nofun
  cases step with
  | inLine frame' handler =>
    dsimp only [sendTurn] at h ⊢
    split at h
    · rename_i hwriter
      rw [if_pos hwriter]
      cases hclosed : s.isClosed with
      | true =>
        exfalso
        unfold enter at h
        dsimp only at h
        rw [if_pos hclosed, stages_failSend] at h
        exact hother _ .ended nofun h
      | false =>
        unfold enter
        dsimp only
        rw [if_neg (by simp [hclosed])]
        cases handler with
        | none => exact hclosed
        | some handler =>
          have hregister : (s.register handler).roster.isClosed = false := by
            rw [s.roster_register hclosed]
            exact hclosed
          exact hregister
    · rename_i hwaits
      rw [if_neg hwaits]
  | holding frame' =>
    dsimp only [sendTurn] at h ⊢
    split at h
    · rename_i hroom
      rw [if_pos hroom]
      split at h
      · rw [roster_setStage] at h
        exact absurd h (hother _ _ nofun)
      · exact absurd h (hfails _ _)
    · rename_i hfull
      rw [if_neg hfull]
      split at h
      · rfl
      · rfl
      · exact absurd h (hfails _ _)
  | flushing => exact absurd rfl hunwritten

/-- Ending the task that sends pings does not close the link. -/
theorem isClosed_stopKeepAlive (s : Link) : s.stopKeepAlive.isClosed = s.isClosed :=
  congrArg (fun ledger : Ledger => ledger.phase == .closed) s.ledger_stopKeepAlive

/-- Who goes on after its turn is woken for another one. -/
theorem exists_turned {after : Link × Bool} (hturn : (s.woken t).taskTurn t = after) :
    ∃ ready, s.turned (.task t) = { after.1 with ready := ready } ∧
      (after.2 → .task t ∈ ready) := by
  subst hturn
  unfold turned
  dsimp only
  split
  · exact ⟨_, rfl, fun _ => List.mem_cons_self⟩
  · rename_i hstays
    exact ⟨_, rfl, fun hgoesOn => absurd hgoesOn hstays⟩

/-- A call that gets or keeps the writer in its turn leaves the link open. -/
theorem isClosed_turn {label : Option Nat} {purpose purpose' : Purpose} {step : SendStep}
    {frame : Frame} (hopen : s.isClosed = false)
    (htask : s.tasks[t]? = some ⟨label, .sending purpose step, false⟩)
    (hunwritten : step ≠ .flushing)
    (hnew : (s.act (.turn (.task t))).roster.stages[t]? =
      some (.sending purpose' (.holding frame))) :
    (s.act (.turn (.task t))).isClosed = false := by
  change (s.turnOf (.task t)).roster.stages[t]? = _ at hnew
  change (s.turnOf (.task t)).isClosed = false
  rw [turnOf_eq_release] at hnew ⊢
  have hstage := hnew
  rw [stages_releaseUnused] at hstage
  have hturned : (s.turned (.task t)).isClosed = false := by
    obtain ⟨ready, hsame, -⟩ := exists_turned (taskTurn_sending htask)
    rw [hsame] at hstage ⊢
    exact (isClosed_sendTurn hunwritten hstage).trans hopen
  rcases (s.turned (.task t)).unused_or_releaseUnused with
    ⟨-, hsame⟩ | ⟨hunused, -, hstopped | ⟨hnobody, -⟩⟩
  · rwa [hsame]
  · rw [hstopped, isClosed_stopKeepAlive, hturned]
  · -- The call itself still uses the link, for a ping or for something else.
    have hmem := List.mem_of_getElem? hstage
    have hidle := hunused.2
    rw [isInUse_eq, stages_releaseUnused, List.any_eq_false] at hidle
    exact absurd (by simp [hnobody _ hmem, Stage.usesWriter]) (hidle _ hmem)

/-- A task that is about to ping has been so before, or it got the writer of an open link in its
turn. -/
theorem aboutToPing_cases {purpose : Purpose} {frame : Frame}
    (htask : (s.act action).tasks[t]? = some ⟨none, .sending purpose (.holding frame), false⟩) :
    s.tasks[t]? = some ⟨none, .sending purpose (.holding frame), false⟩ ∨
      s.isClosed = false ∧ action = .turn (.task t) ∧ ∃ handler,
        s.tasks[t]? = some ⟨none, .sending purpose (.inLine frame handler), false⟩ := by
  have hpinger {stage : Stage} (hstage : s.roster.stages[t]? = some stage) :
      s.tasks[t]? = some ⟨none, stage, false⟩ := by
    have hlt := (List.getElem?_eq_some_iff.mp hstage).1
    simp only [roster, List.length_map] at hlt
    obtain ⟨same, hsame⟩ := (isPinger_of_act ⟨_, htask⟩).resolve_right (by omega)
    rwa [Option.some.inj (hstage.symm.trans (stage_of_task hsame))]
  cases s.comes_act (stage_of_task htask) with
  | begun hnone hbegins => cases isFirst_of_begins s hbegins
  | kept hstage => exact .inl (hpinger hstage)
  | dropped hended => cases hended
  | @stepped label stage haction hbefore hcourse =>
    cases hcourse with
    | wait => exact .inl (hpinger (stage_of_task hbefore))
    | @enter _ _ handler hwriter hopen =>
      exact .inr ⟨hopen, haction, handler, hpinger (stage_of_task hbefore)⟩

/-- If pings are written at once, then a link is not closed as long as one is to be written. -/
theorem isAboutToPing_of_act (hatOnce : s.pingsAtOnce action) (hclosed : (s.act action).isClosed)
    {task : Task} (htask : (s.act action).tasks[t]? = some task) (hping : task.isAboutToPing) :
    s.isClosed ∧ s.tasks[t]? = some task := by
  obtain ⟨purpose, frame, rfl⟩ := isAboutToPing_iff.mp hping
  have hstays {step : SendStep} (haction : action = .turn (.task t)) (hopen : s.isClosed = false)
      (hbefore : s.tasks[t]? = some ⟨none, .sending purpose step, false⟩)
      (hunwritten : step ≠ .flushing) : (s.act action).isClosed = false := by
    subst haction
    exact isClosed_turn hopen hbefore hunwritten (stage_of_task htask)
  rcases aboutToPing_cases htask with hbefore | ⟨hopen, haction, handler, hbefore⟩
  · refine ⟨?_, hbefore⟩
    by_contra hopen
    rw [Bool.not_eq_true] at hopen
    have hall := List.all_eq_true.mp hatOnce _ (List.mk_mem_zipIdx_iff_getElem?.mpr hbefore)
    have haction : action = .turn (.task t) := by
      dsimp only at hall
      rw [hping, Bool.not_true, Bool.false_or] at hall
      unfold Action.isTurnOf at hall
      split at hall
      · rw [beq_iff_eq.mp hall]
      · cases hall
    cases (hstays haction hopen hbefore nofun).symm.trans hclosed
  · cases (hstays haction hopen hbefore nofun).symm.trans hclosed

/-- Nobody is about to write a ping. -/
def IsQuiet (s : Link) : Prop := ∀ task ∈ s.tasks, task.isAboutToPing = false

/-- If pings are written at once, then nobody is about to write one on a closed link. -/
theorem isQuiet_runOf (config : Config) {actions : List Action}
    (hatOnce : (fresh config).obeys pingsAtOnce actions)
    (hclosed : (runOf config actions).isClosed) : (runOf config actions).IsQuiet := by
  induction actions using List.reverseRecOn with
  | nil => exact nofun
  | append_singleton actions action ih =>
    rw [obeys_append, Bool.and_eq_true] at hatOnce
    obtain ⟨hbefore, hlast⟩ := hatOnce
    rw [runOf_concat] at hclosed ⊢
    intro task hmem
    obtain ⟨t, htask⟩ := List.mem_iff_getElem?.mp hmem
    by_contra hping
    obtain ⟨hclosed', hheld⟩ := isAboutToPing_of_act (Bool.and_eq_true_iff.mp hlast).1 hclosed
      htask (by simpa using hping)
    exact hping (ih hbefore hclosed' task (List.mem_of_getElem? hheld))

/-- On a closed link on which nobody is about to write a ping none is written. -/
theorem pingsIn_of_isClosed (hclosed : s.isClosed) (hquiet : s.IsQuiet) (actions : List Action) :
    s.pingsIn actions = 0 := by
  refine pingsIn_eq_zero (fun s => s.isClosed ∧ s.IsQuiet) ?_ ?_ ⟨hclosed, hquiet⟩
    (s.obeys_true actions)
  · rintro s action ⟨-, hquiet⟩
    by_contra hpings
    obtain ⟨t, task, -, htask, hping⟩ := isAboutToPing_of_pingsAt hpings
    cases (hquiet task (List.mem_of_getElem? htask)).symm.trans hping
  · rintro s action ⟨hclosed, hquiet⟩ -
    refine ⟨(s.act_moves action).isClosed hclosed, fun task hmem => ?_⟩
    obtain ⟨t, htask⟩ := List.mem_iff_getElem?.mp hmem
    by_contra hping
    obtain ⟨purpose, frame, rfl⟩ := isAboutToPing_iff.mp (by simpa using hping)
    rcases aboutToPing_cases htask with hbefore | ⟨hopen, -⟩
    · exact hping (hquiet _ (List.mem_of_getElem? hbefore))
    · cases hopen.symm.trans hclosed

end Link

end BeeProtocol
