import BeeProtocol.Proofs.Link.Handshakes
import BeeProtocol.Proofs.Link.KeepAlive
import BeeProtocol.Proofs.Message.Spelling

/-!
# The schedule of pings

The task that an accepted handshake starts reckons every ping from the one before and not from the
time when that was written. So whenever nobody can go on and no ping is under way, it has written as
many pings as whole intervals have passed since the handshake.
-/

namespace BeeProtocol

namespace Clock

/-- The instant of a ping in a series that starts at a time, or one that stands for an instant that
no deadline can name. -/
def IsInstantOf (since : Nat) (period : Duration) (count due : Nat) : Prop :=
  due = since * tick + count * period.nanos ∨
    horizon ≤ since * tick + count * period.nanos ∧ since * tick + farAway ≤ due

/-- The next instant of a series cannot be named, and an instant that stands for one has passed. -/
def HasStrayed (since : Nat) (period : Duration) (now : Nat) : Prop :=
  horizon ≤ now * tick + period.nanos ∧ since * tick + farAway ≤ now * tick

variable {since now now' count due : Nat} {period : Duration}

/-- Who has strayed from the schedule stays so. -/
theorem HasStrayed.later (h : HasStrayed since period now) (hlater : now ≤ now') :
    HasStrayed since period now' := by
  have hticks : now * tick ≤ now' * tick := Nat.mul_le_mul_right _ hlater
  exact ⟨h.1.trans (Nat.add_le_add_right hticks _), h.2.trans hticks⟩

/-- The first instant of a series lies one period after its start. -/
theorem isInstantOf_first (now : Nat) (period : Duration) :
    IsInstantOf now period 1 (next now (now * tick) period) := by
  unfold next IsInstantOf
  rw [Nat.one_mul]
  split
  · exact .inl rfl
  · rename_i hfar
    exact .inr ⟨Nat.le_of_not_lt hfar, le_rfl⟩

/-- The instant that follows one of a series that has come. -/
theorem IsInstantOf.next (h : IsInstantOf since period (count + 1) due)
    (hpast : since * tick + count * period.nanos ≤ now * tick) (hdue : due ≤ now * tick) :
    HasStrayed since period now ∨
      since * tick + (count + 1) * period.nanos ≤ now * tick ∧
        IsInstantOf since period (count + 2) (next now due period) := by
  have hstep (n : Nat) : since * tick + (n + 1) * period.nanos =
      since * tick + n * period.nanos + period.nanos := by
    rw [Nat.add_mul, Nat.one_mul, Nat.add_assoc]
  rcases h with rfl | ⟨hfar, hlate⟩
  · refine .inr ⟨hdue, ?_⟩
    unfold Clock.next IsInstantOf
    rw [hstep (count + 1)]
    split
    · exact .inl rfl
    · rename_i hbeyond
      refine .inr ⟨Nat.le_of_not_lt hbeyond, Nat.add_le_add_right ?_ _⟩
      exact (Nat.le_add_right ..).trans hdue
  · rw [hstep] at hfar
    exact .inl ⟨hfar.trans (Nat.add_le_add_right hpast _), hlate.trans hdue⟩

/-- The deadlines of a series that starts at a time are its instants: the next one can be named, or
none of those that stand for one has passed. -/
def NamesInstants (since : Nat) (period : Duration) (now : Nat) : Prop :=
  now * tick < horizon ∧
    (now * tick + period.nanos < horizon ∨ now * tick < since * tick + farAway)

instance (since : Nat) (period : Duration) (now : Nat) :
    Decidable (NamesInstants since period now) := inferInstanceAs (Decidable (_ ∧ _))

/-- As many instants of a series have passed as whole periods, if the next one has not come. -/
theorem IsInstantOf.count_eq (h : IsInstantOf since period (count + 1) due)
    (hpast : since * tick + count * period.nanos ≤ now * tick) (hwaits : now * tick < due)
    (hnames : NamesInstants since period now) :
    count = (now - since) * tick / period.nanos := by
  have hnext : now * tick < since * tick + (count + 1) * period.nanos := by
    rcases h with rfl | ⟨hfar, -⟩
    · exact hwaits
    · exact hnames.1.trans_le hfar
  symm
  rw [Nat.sub_mul]
  refine Nat.div_eq_of_lt_le ?_ ?_
  · omega
  · omega

end Clock

open Clock (IsInstantOf HasStrayed NamesInstants)

/-- The task that sends pings keeps pace: it stands before the ping that is due next, with this many
pings written since a time. -/
inductive Stage.KeepsPace (since : Nat) (period : Duration) (now : Nat) : Nat → Stage → Prop
  | started (hnow : now = since) : KeepsPace since period now 0 (.called (.keepAlive period))
  | pausing {count due : Nat} (hdue : IsInstantOf since period (count + 1) due)
    (hpast : since * Clock.tick + count * period.nanos ≤ now * Clock.tick) :
    KeepsPace since period now count (.pausing period due)
  | inLine {count next : Nat} (hnext : IsInstantOf since period (count + 2) next)
    (hpast : since * Clock.tick + (count + 1) * period.nanos ≤ now * Clock.tick) :
    KeepsPace since period now count
      (.sending (.keepAlive period next) (.inLine Link.pingFrame none))
  | holding {count next : Nat} (hnext : IsInstantOf since period (count + 2) next)
    (hpast : since * Clock.tick + (count + 1) * period.nanos ≤ now * Clock.tick) :
    KeepsPace since period now count (.sending (.keepAlive period next) (.holding Link.pingFrame))
  | flushing {count next : Nat} (hnext : IsInstantOf since period (count + 1) next)
    (hpast : since * Clock.tick + count * period.nanos ≤ now * Clock.tick) :
    KeepsPace since period now count (.sending (.keepAlive period next) .flushing)

/-- Whether a task at a stage has to take a turn for the time that it is. -/
def Stage.isDueAt (now : Nat) : Stage → Bool
  | called _ => true
  | pausing _ due => Clock.isDue now due
  | _ => false

/-- Who has begun keeps pace as time passes. -/
theorem Stage.KeepsPace.later {since now now' count : Nat} {period : Duration} {stage : Stage}
    (h : stage.KeepsPace since period now count) (hlater : now ≤ now')
    (hbegun : ∀ call, stage ≠ .called call) : stage.KeepsPace since period now' count := by
  have hticks : now * Clock.tick ≤ now' * Clock.tick := Nat.mul_le_mul_right _ hlater
  cases h with
  | started hnow => exact absurd rfl (hbegun _)
  | pausing hdue hpast => exact .pausing hdue (hpast.trans hticks)
  | inLine hnext hpast => exact .inLine hnext (hpast.trans hticks)
  | holding hnext hpast => exact .holding hnext (hpast.trans hticks)
  | flushing hnext hpast => exact .flushing hnext (hpast.trans hticks)

namespace Link

variable {s next : Link} {action : Action} {since count key t : Nat} {period : Duration}
  {stage : Stage}

/-! ### The turn of the task that sends pings -/

/-- No ping is sent in the turn of a task that is not about to send one. -/
theorem pingsAt_of_task {task : Task} (htask : s.tasks[t]? = some task)
    (hidle : task.isAboutToPing = false) : s.pingsAt (.turn (.task t)) = 0 := by
  by_contra hpings
  obtain ⟨u, other, haction, hsame, hping⟩ := isAboutToPing_of_pingsAt hpings
  cases haction
  cases htask.symm.trans hsame
  cases hidle.symm.trans hping

/-- A task that has the writer writes its ping if there is room for it. -/
theorem pingsAt_of_holding {purpose : Purpose} (hlimit : 1 ≤ s.codec.limit)
    (htask : s.tasks[t]? = some ⟨none, .sending purpose (.holding pingFrame), false⟩) :
    s.pingsAt (.turn (.task t)) = if s.writer.outbox.length < Writer.boundary then 1 else 0 := by
  have hsize : pingFrame.payload.length ≤ s.codec.limit := hlimit
  have hentry : (s.entryAt (.turn (.task t))).written =
      if s.writer.outbox.length < Writer.boundary then [(t, pingFrame)] else [] := by
    by_cases hroom : s.writer.outbox.length < Writer.boundary
    · simp [entryAt, htask, callEntry, hroom, hsize]
    · simp [entryAt, htask, callEntry, hroom]
  rw [pingsAt, hentry]
  split
  · simp [htask]
  · rfl

/-- What a turn makes of the task that sends pings: it keeps pace, and goes on if there is a need
to, unless the link is closed now or the clock has got too far. -/
def KeepsOn (s : Link) (since : Nat) (period : Duration) (count t : Nat) (after : Link × Bool) :
    Prop :=
  after.1.isClosed ∨ HasStrayed since period s.now ∨
    ∃ new, after.1.roster.stages[t]? = some new ∧ new.KeepsPace since period s.now count ∧
      (new.isDueAt s.now → after.2)

/-- A task that is sending its ping need not go on. -/
theorem keepsOn_of_sending {after : Link × Bool} {purpose : Purpose} {step : SendStep}
    (hstage : after.1.roster.stages[t]? = some (.sending purpose step))
    (hpace : Stage.KeepsPace since period s.now count (.sending purpose step)) :
    s.KeepsOn since period count t after :=
  .inr (.inr ⟨_, hstage, hpace, fun hcome => by cases hcome⟩)

/-- A task that pauses keeps to the schedule in its turn. -/
theorem keepsOn_pauseTurn {due : Nat} (hopen : s.isClosed = false) (hlimit : 1 ≤ s.codec.limit)
    (hstage : s.roster.stages[t]? = some (.pausing period due))
    (hdue : IsInstantOf since period (count + 1) due)
    (hpast : since * Clock.tick + count * period.nanos ≤ s.now * Clock.tick) :
    s.KeepsOn since period count t (s.pauseTurn t period due) := by
  unfold pauseTurn
  split
  · rename_i hcome
    rcases hdue.next hpast (by simpa [Clock.isDue] using hcome) with hstrayed | ⟨hpast', hnext⟩
    · exact .inr (.inl hstrayed)
    · rw [if_neg (by simp [hopen])]
      refine keepsOn_of_sending ?_ (.inLine hnext hpast')
      have hsize : pingFrame.payload.length ≤ s.codec.limit := hlimit
      rw [stages_beginSend_of_le s _ none hsize]
      exact Lists.getElem?_set_of_some hstage _
  · rename_i hwaits
    exact .inr (.inr ⟨_, hstage, .pausing hdue hpast, fun hcome => absurd hcome hwaits⟩)

/-- A failure to write closes the link. -/
theorem isClosed_failWrite (s : Link) (t : Nat) (purpose : Purpose) (reason : ProtocolError) :
    (s.failWrite t purpose reason).isClosed := by
  have hfailed := isClosed_fail (s.leaveLine t)
  change (failSend _ t purpose _).roster.isClosed
  rw [roster_failSend]
  cases purpose <;> exact hfailed

/-- A task that writes its ping keeps to the schedule in its turn. -/
theorem keepsOn_sendTurn {next : Nat} {step : SendStep} (hopen : s.isClosed = false)
    (hlimit : 1 ≤ s.codec.limit)
    (htask : s.tasks[t]? = some ⟨none, .sending (.keepAlive period next) step, false⟩)
    (hpace : Stage.KeepsPace since period s.now count (.sending (.keepAlive period next) step)) :
    s.KeepsOn since period (count + s.pingsAt (.turn (.task t))) t
      (s.sendTurn t (.keepAlive period next) step) := by
  have hstage := stage_of_task htask
  cases hpace with
  | inLine hnext hpast =>
    rw [pingsAt_of_task htask rfl, Nat.add_zero]
    dsimp only [sendTurn]
    split
    · unfold enter
      dsimp only [Option.elim_none]
      rw [if_neg (by simp [hopen])]
      refine keepsOn_of_sending ?_ (.holding hnext hpast)
      rw [roster_setStage]
      exact Lists.getElem?_set_of_some hstage _
    · exact keepsOn_of_sending hstage (.inLine hnext hpast)
  | holding hnext hpast =>
    rw [pingsAt_of_holding hlimit htask]
    dsimp only [sendTurn]
    by_cases hroom : s.writer.outbox.length < Writer.boundary
    · have hsize : pingFrame.payload.length ≤ s.codec.limit := hlimit
      have hencoded : s.codec.encode pingFrame = .ok pingFrame.envelope := if_pos hsize
      rw [if_pos hroom, if_pos hroom, hencoded]
      refine keepsOn_of_sending ?_ (.flushing hnext hpast)
      rw [roster_setStage]
      exact Lists.getElem?_set_of_some hstage _
    · rw [if_neg hroom, if_neg hroom]
      split
      · exact keepsOn_of_sending hstage (.holding hnext hpast)
      · exact keepsOn_of_sending hstage (.holding hnext hpast)
      · exact .inl (isClosed_failWrite _ t _ _)
  | flushing hnext hpast =>
    rw [pingsAt_of_task htask rfl, Nat.add_zero]
    dsimp only [sendTurn]
    split
    · refine .inr (.inr ⟨_, ?_, .pausing hnext hpast, fun _ => rfl⟩)
      dsimp only [afterSend]
      rw [roster_setStage, Roster.move, roster_leaveLine]
      exact Lists.getElem?_set_of_some hstage _
    · exact keepsOn_of_sending hstage (.flushing hnext hpast)
    · exact .inl (isClosed_failWrite _ t _ _)

/-- A task that sends pings keeps to the schedule in its turn. -/
theorem keepsOn_taskTurn (hopen : s.isClosed = false) (hlimit : 1 ≤ s.codec.limit)
    (htask : s.tasks[t]? = some ⟨none, stage, false⟩)
    (hpace : stage.KeepsPace since period s.now count) :
    s.KeepsOn since period (count + s.pingsAt (.turn (.task t))) t ((s.woken t).taskTurn t) := by
  have hstage : (s.woken t).roster.stages[t]? = some stage := stage_of_task htask
  have htask' : (s.woken t).tasks[t]? = some ⟨none, stage, false⟩ := htask
  cases hpace with
  | started hnow =>
    rw [pingsAt_of_task htask rfl, taskTurn_called htask]
    have hpausing : Stage.KeepsPace since period s.now 0
        (.pausing period (Clock.next s.now (s.now * Clock.tick) period)) := by
      subst hnow
      exact .pausing (Clock.isInstantOf_first s.now period) (by simp)
    refine .inr (.inr ⟨_, ?_, hpausing, fun _ => rfl⟩)
    dsimp only [beginCall]
    rw [roster_setStage]
    exact Lists.getElem?_set_of_some hstage _
  | @pausing _ due hdue hpast =>
    rw [pingsAt_of_task htask rfl, Nat.add_zero]
    have hturn : (s.woken t).taskTurn t = (s.woken t).pauseTurn t period due := by
      unfold taskTurn
      rw [htask']
      rfl
    rw [hturn]
    exact keepsOn_pauseTurn hopen hlimit hstage hdue hpast
  | inLine hnext hpast =>
    rw [taskTurn_sending htask]
    exact keepsOn_sendTurn hopen hlimit htask' (.inLine hnext hpast)
  | holding hnext hpast =>
    rw [taskTurn_sending htask]
    exact keepsOn_sendTurn hopen hlimit htask' (.holding hnext hpast)
  | flushing hnext hpast =>
    rw [taskTurn_sending htask]
    exact keepsOn_sendTurn hopen hlimit htask' (.flushing hnext hpast)

/-! ### The schedule in a run -/

/-- The task under a key sends pings and keeps pace, and it was woken if it has to take a turn. -/
structure Paces (s : Link) (since : Nat) (period : Duration) (count key : Nat) : Prop where
  /-- The task is the one that was started last. -/
  keepAlive : s.keepAlive = some key
  /-- A ping fits the limit. -/
  limit : 1 ≤ s.codec.limit
  /-- The task keeps pace, and was woken if it has to take a turn. -/
  keepsPace : ∃ stage, s.tasks[key]? = some ⟨none, stage, false⟩ ∧
    stage.KeepsPace since period s.now count ∧ (stage.isDueAt s.now → .task key ∈ s.ready)

/-- A link sends pings on schedule as long as it is open and used and the clock has not got too
far. -/
def IsOnSchedule (s : Link) (since : Nat) (period : Duration) (count key : Nat) : Prop :=
  s.isClosed ∨ s.Unused ∨ HasStrayed since period s.now ∨ s.Paces since period count key

namespace Paces

/-- The task that paces the schedule sends pings. -/
theorem isPinger (h : s.Paces since period count key) : s.IsPinger key := by
  obtain ⟨stage, htask, -⟩ := h.keepsPace
  exact ⟨stage, htask⟩

/-- What others do does not concern the task. -/
theorem of_same (h : s.Paces since period count key) (hnow : next.now = s.now)
    (hconfig : next.config = s.config) (hkeep : next.keepAlive = s.keepAlive)
    (htask : next.tasks[key]? = s.tasks[key]?)
    (hwoken : .task key ∈ s.ready → .task key ∈ next.ready) :
    next.Paces since period count key := by
  obtain ⟨stage, hstage, hpace, hready⟩ := h.keepsPace
  refine ⟨hkeep.trans h.keepAlive, ?_, stage, htask.trans hstage, ?_, ?_⟩
  · rw [codec_of_config hconfig]
    exact h.limit
  · rwa [hnow]
  · rw [hnow]
    exact fun hcome => hwoken (hready hcome)

/-- The schedule is kept while others take their turns. -/
theorem steady (h : s.Paces since period count key) (hother : key ≠ t)
    (hsteady : s.Steady t next) : next.Paces since period count key :=
  h.of_same hsteady.now hsteady.config hsteady.keepAlive (hsteady.others key hother)
    (hsteady.woken key hother)

/-- The schedule is kept or over when the link is released. -/
theorem releaseUnused (h : s.Paces since period count key) :
    s.releaseUnused.IsOnSchedule since period count key := by
  rcases s.unused_or_releaseUnused with ⟨-, hsame⟩ | ⟨hunused, -⟩
  · rw [hsame]
    exact .inr (.inr (.inr h))
  · exact .inr (.inl hunused)

/-- Time passes when the task has begun, and the task is woken if its ping is due then. -/
theorem pass {gap : Nat} (h : s.Paces since period count key)
    (hbegun : s.beginsInTime (.pass gap)) : (s.pass gap).Paces since period count key := by
  obtain ⟨stage, htask, hpace, -⟩ := h.keepsPace
  have hall := List.all_eq_true.mp hbegun _ (List.mem_of_getElem? htask)
  have hcalled (call : LinkCall) : stage ≠ .called call := by
    rintro rfl
    cases hall
  have hpassed : Wakes { s with now := s.now + gap } (s.pass gap) := by
    unfold Link.pass
    exact wakes_wakeTasks _ _
  obtain ⟨ready, hpass, -⟩ := hpassed
  have hnow : (s.pass gap).now = s.now + gap := by rw [hpass]
  have hsame : (s.pass gap).tasks[key]? = some ⟨none, stage, false⟩ := by rwa [hpass]
  refine ⟨?_, ?_, stage, hsame, ?_, fun hcome => ?_⟩
  · rw [hpass]
    exact h.keepAlive
  · rw [hpass]
    exact h.limit
  · rw [hnow]
    exact hpace.later (Nat.le_add_right ..) hcalled
  · rw [hnow] at hcome
    cases hpace with
    | started hnow => exact absurd rfl (hcalled _)
    | pausing hdue hpast =>
      exact mem_ready_wakeTasks_of_test (s := { s with now := s.now + gap }) (stage_of_task htask)
        _ hcome
    | _ => cases hcome

/-- The task takes its turn. -/
theorem turned (h : s.Paces since period count key) (hopen : s.isClosed = false) :
    (s.turned (.task key)).IsOnSchedule since period (count + s.pingsAt (.turn (.task key)))
      key := by
  obtain ⟨stage, htask, hpace, hready⟩ := h.keepsPace
  obtain ⟨ready, hturned, hgoesOn⟩ := exists_turned (s := s) (t := key) rfl
  have hclosed : (s.turned (.task key)).isClosed = ((s.woken key).taskTurn key).1.isClosed := by
    rw [hturned]
    rfl
  cases s.tends_turned key with
  | stops _ _ _ hcloses => exact .inl hcloses
  | starts haccepts =>
    exfalso
    have hnever : s.isAcceptedAt stage = false := by cases hpace <;> rfl
    simp [acceptsAt, marksOpen, htask, hnever] at haccepts
  | steady hsteady =>
    rcases keepsOn_taskTurn hopen h.limit htask hpace with
      hcloses | hstrayed | ⟨new, hnew, hpace', hdue⟩
    · exact .inl (hclosed.trans hcloses)
    · refine .inr (.inr (.inl ?_))
      rwa [hsteady.now]
    · refine .inr (.inr (.inr ⟨hsteady.keepAlive.trans h.keepAlive, ?_, new, ?_, ?_, ?_⟩))
      · rw [codec_of_config hsteady.config]
        exact h.limit
      · obtain ⟨same, hsame⟩ := hsteady.isPinger_iff.mpr h.isPinger
        have hstage : (s.turned (.task key)).roster.stages[key]? = some new := by rwa [hturned]
        rwa [Option.some.inj (hstage.symm.trans (stage_of_task hsame))]
      · rwa [hsteady.now]
      · rw [hsteady.now, hturned]
        exact fun hcome => hgoesOn (hdue hcome)

end Paces

/-- Time never runs backwards. -/
theorem now_le_act (s : Link) (action : Action) : s.now ≤ (s.act action).now := by
  cases s.does_act action with
  | adds hadds => exact hadds.later
  | beside hother hsteady hact => rw [hact, releaseUnused_now, hsteady.now]
  | givesAway hact => rw [hact, releaseUnused_now]
  | turns haction htends hact => rw [hact, releaseUnused_now, htends.now]

/-- A closed link stays closed when it is released. -/
theorem isClosed_releaseUnused (h : s.isClosed) : s.releaseUnused.isClosed := by
  rcases s.unused_or_releaseUnused with ⟨-, hsame⟩ | ⟨-, -, hstopped | ⟨-, hfailed⟩⟩
  · rwa [hsame]
  · rw [hstopped, isClosed_stopKeepAlive, h]
  · rw [hfailed]
    exact isClosed_fail _

/-- In what is not its turn no ping is written. -/
theorem Paces.pingsAt_of_ne (h : s.Paces since period count key) (hmanned : s.Manned)
    (hother : action ≠ .turn (.task key)) : s.pingsAt action = 0 := by
  by_contra hpings
  obtain ⟨t, task, haction, htask, hping⟩ := isAboutToPing_of_pingsAt hpings
  obtain ⟨purpose, frame, rfl⟩ := isAboutToPing_iff.mp hping
  have hkey := h.keepAlive.symm.trans (hmanned.alone t ⟨_, htask⟩)
  exact hother (by rw [haction, Option.some.inj hkey])

/-- What is not its turn and does not start another task leaves it on schedule. -/
theorem Paces.act_of_ne (h : s.Paces since period count key) (hbegun : s.beginsInTime action)
    (hnone : s.acceptsAt action = false) (hother : action ≠ .turn (.task key)) :
    (s.act action).IsOnSchedule since period count key := by
  cases s.does_act action with
  | adds hadds =>
    refine .inr (.inr (.inr ?_))
    rcases hadds.now with hnow | ⟨gap, haction, hpass⟩
    · obtain ⟨more, htasks, -⟩ := hadds.tasks
      refine h.of_same hnow hadds.config hadds.keepAlive ?_ (hadds.woken key)
      rw [htasks]
      exact List.getElem?_append_left h.isPinger.lt
    · subst haction
      exact h.pass hbegun
  | beside hbeside hsteady hact =>
    rw [hact]
    refine (h.steady ?_ hsteady).releaseUnused
    rintro rfl
    exact hbeside h.isPinger
  | givesAway hact =>
    rw [hact]
    exact Paces.releaseUnused (h.of_same rfl rfl rfl rfl id)
  | @turns _ t haction htends hact =>
    subst haction
    have hnot : key ≠ t := fun hkey => hother (by rw [hkey])
    rw [hact]
    cases htends with
    | steady hsteady => exact (h.steady hnot hsteady).releaseUnused
    | stops _ _ _ hcloses => exact .inl (isClosed_releaseUnused hcloses)
    | starts haccepts => cases hnone.symm.trans haccepts

namespace IsOnSchedule

/-- A link that was released is on schedule if it was before. -/
theorem releaseUnused (h : s.IsOnSchedule since period count key) :
    s.releaseUnused.IsOnSchedule since period count key := by
  rcases h with hclosed | hunused | hstrayed | hpaces
  · exact .inl (isClosed_releaseUnused hclosed)
  · rcases s.unused_or_releaseUnused with ⟨hused, -⟩ | ⟨hunused', -⟩
    · exact absurd hunused hused
    · exact .inr (.inl hunused')
  · refine .inr (.inr (.inl ?_))
    rwa [releaseUnused_now]
  · exact hpaces.releaseUnused

/-- Whatever is done with a link, its pings are sent on schedule until another handshake is
accepted. -/
theorem act (h : s.IsOnSchedule since period count key) (hmanned : s.Manned)
    (hheld : s.callsWhileHeld action) (hbegun : s.beginsInTime action)
    (hnone : s.acceptsAt action = false) :
    (s.act action).IsOnSchedule since period (count + s.pingsAt action) key := by
  rcases h with hclosed | hunused | hstrayed | hpaces
  · exact .inl ((s.act_moves action).isClosed hclosed)
  · exact .inr (.inl (hunused.act hheld))
  · exact .inr (.inr (.inl (hstrayed.later (s.now_le_act action))))
  · cases hopen : s.isClosed with
    | true => exact .inl ((s.act_moves action).isClosed hopen)
    | false =>
      by_cases hown : action = .turn (.task key)
      · subst hown
        have hturned := (hpaces.turned hopen).releaseUnused
        rwa [← turnOf_eq_release] at hturned
      · rw [hpaces.pingsAt_of_ne hmanned hown]
        exact hpaces.act_of_ne hbegun hnone hown

end IsOnSchedule

/-! ### When a handshake was accepted -/

/-- The frame that asks to connect is not empty. -/
theorem length_of_connectRequest {request : ConnectRequest} {frame : Frame}
    (hframe : (Message.connectRequest request).toFrame = .ok frame) : 1 ≤ frame.payload.length := by
  unfold Message.toFrame at hframe
  cases hencode : (Message.connectRequest request).encode with
  | error reason => simp [hencode, Except.map] at hframe
  | ok payload =>
    simp only [hencode, Except.map, Except.ok.injEq] at hframe
    subst hframe
    obtain ⟨front, back, hfront, -, rfl⟩ :=
      Layout.writes_pair_iff.mp (Message.encode_eq_ok_iff.mp hencode)
    obtain ⟨body, -, rfl⟩ := Value.encode_eq_ok_iff.mp (valueField_eq_ok_iff.mp hfront)
    simp

/-- A call that has asked to connect has written a frame that is not too large. -/
def FitsHandshakes (s : Link) : Prop :=
  ∀ stage ∈ s.roster.stages, stage.handshake?.isSome → 1 ≤ s.codec.limit

/-- The frames of handshakes fit after every action. -/
theorem FitsHandshakes.act (h : s.FitsHandshakes) (action : Action) :
    (s.act action).FitsHandshakes := by
  intro new hmem hasks
  rw [codec_of_config (s.config_act action)]
  obtain ⟨u, hstage⟩ := List.mem_iff_getElem?.mp hmem
  cases s.comes_act hstage with
  | begun hnone hbegins =>
    have hfirst := isFirst_of_begins s hbegins
    cases new with
    | sending purpose step => cases hfirst
    | replying reply bound use deadline => cases hfirst
    | _ => cases hasks
  | kept hbefore => exact h new (List.mem_of_getElem? hbefore) hasks
  | dropped hended =>
    subst hended
    cases hasks
  | @stepped label stage haction htask hcourse =>
    have hbefore := h stage (List.mem_of_getElem? (stage_of_task htask))
    cases hcourse with
    | wait => exact hbefore hasks
    | queue hwrites hsize =>
      cases hwrites with
      | handshake hbound hframe => exact (length_of_connectRequest hframe).trans hsize
      | _ => cases hasks
    | enter hwriter hopen => exact hbefore (Stage.handshake_sending .. ▸ hasks)
    | encode hroom hsize => exact hbefore (Stage.handshake_sending .. ▸ hasks)
    | await reply bound use deadline =>
      cases use with
      | request => cases hasks
      | handshake => exact hbefore rfl
    | _ => cases hasks

/-- The frames of handshakes fit in every run. -/
theorem fitsHandshakes_runOf (config : Config) (actions : List Action) :
    (runOf config actions).FitsHandshakes := by
  induction actions using List.reverseRecOn with
  | nil => exact nofun
  | append_singleton actions action ih =>
    rw [runOf_concat]
    exact ih.act action

/-- A handshake is accepted in the turn of the call that asks for it. -/
theorem task_of_acceptsAt (h : s.acceptsAt action) :
    ∃ t label stage, action = .turn (.task t) ∧ s.tasks[t]? = some ⟨label, stage, false⟩ ∧
      stage.handshake?.isSome := by
  cases action with
  | turn actor =>
    cases actor with
    | reader => cases h
    | task t =>
      dsimp only [acceptsAt, marksOpen] at h
      cases htask : s.tasks[t]? with
      | none => simp [htask] at h
      | some task =>
        obtain ⟨label, stage, isAborted⟩ := task
        obtain ⟨rfl, haccepted⟩ : isAborted = false ∧ s.isAcceptedAt stage := by
          simpa [htask] using h
        refine ⟨t, label, stage, rfl, htask, ?_⟩
        cases stage with
        | replying reply bound use deadline =>
          obtain rfl : use = .handshake := by simpa using (Bool.and_eq_true_iff.mp haccepted).1
          rfl
        | _ => cases haccepted
  | _ => cases h

/-- An accepted handshake starts the schedule. -/
theorem isOnSchedule_act (hmanned : s.Manned) (hfits : s.FitsHandshakes)
    (haccepts : s.acceptsAt action) (hinterval : s.config.keepAliveInterval = some period)
    (hpositive : period.nanos ≠ 0) :
    (s.act action).IsOnSchedule s.now period 0 s.tasks.length := by
  obtain ⟨t, label, stage, rfl, htask, hasks⟩ := task_of_acceptsAt haccepts
  obtain ⟨before, hbefore, hafter⟩ := s.accepts_turned t haccepts
  have hlength := hbefore.length
  have hother : s.tasks.length ≠ t := (List.getElem?_eq_some_iff.mp htask).1.ne'
  have hstarted : before.startKeepAlive.Paces s.now period 0 s.tasks.length := by
    rcases before.starts_startKeepAlive with ⟨hzero, -⟩ | ⟨same, hstarts⟩
    · rw [hbefore.config] at hzero
      exact absurd (hzero period hinterval) hpositive
    · obtain ⟨hsame, -⟩ := hstarts.interval
      rw [hbefore.config] at hsame
      obtain rfl := Option.some.inj (hinterval.symm.trans hsame)
      have hnow : before.startKeepAlive.now = s.now := hstarts.now.trans hbefore.now
      have hnew : before.keepAlive ≠ some before.tasks.length := fun hkey =>
        Nat.lt_irrefl _ ((hmanned.steady hbefore).known _ hkey)
      have htask' := hstarts.task hnew
      have hwoken := hstarts.woken
      rw [hlength] at htask' hwoken
      refine ⟨hlength ▸ hstarts.keepAlive, ?_, _, htask', .started hnow, fun _ => hwoken⟩
      rw [codec_of_config (hstarts.config.trans hbefore.config)]
      exact hfits stage (List.mem_of_getElem? (stage_of_task htask)) hasks
  have hreleased := (hstarted.steady hother hafter).releaseUnused
  rwa [← turnOf_eq_release] at hreleased

/-- Nobody can go on, and no ping is under way. -/
def IsSettled (s : Link) : Prop :=
  s.ready = [] ∧ ∀ task ∈ s.tasks, task.stage.isPinging = false

instance (s : Link) : Decidable s.IsSettled := inferInstanceAs (Decidable (_ ∧ _))

/-- On schedule, as many pings were written as whole periods have passed. -/
theorem IsOnSchedule.count_eq (h : s.IsOnSchedule since period count key)
    (hrelinquishes : s.Relinquishes) (hopen : s.isClosed = false) (hsettled : s.IsSettled)
    (hnames : NamesInstants since period s.now) :
    count = (s.now - since) * Clock.tick / period.nanos := by
  obtain ⟨hrest, hquiet⟩ := hsettled
  rcases h with hclosed | hunused | ⟨hfar, hlate⟩ | hpaces
  · cases hopen.symm.trans hclosed
  · rcases (hrelinquishes hunused).2 with hclosed | ⟨stage, hmem, hping⟩
    · cases hopen.symm.trans hclosed
    · obtain ⟨task, htask, rfl⟩ := List.mem_map.mp hmem
      cases (hquiet task htask).symm.trans hping
  · rcases hnames.2 with hnear | hearly
    · exact absurd hfar (Nat.not_le_of_lt hnear)
    · exact absurd hlate (Nat.not_le_of_lt hearly)
  · obtain ⟨stage, htask, hpace, hready⟩ := hpaces.keepsPace
    have hasleep : stage.isDueAt s.now = false := by
      by_contra hcome
      have hmem := hready (by simpa using hcome)
      rw [hrest] at hmem
      cases hmem
    have hidle := hquiet _ (List.mem_of_getElem? htask)
    cases hpace with
    | started => cases hasleep
    | pausing hdue hpast =>
      exact hdue.count_eq hpast (by simpa [Stage.isDueAt, Clock.isDue] using hasleep) hnames
    | _ => cases hidle

/-- From an accepted handshake to the next one, pings are sent on schedule. -/
theorem IsOnSchedule.run (h : s.IsOnSchedule since period count key) (hmanned : s.Manned)
    {actions : List Action} (hheld : s.obeys callsWhileHeld actions)
    (hbegun : s.obeys beginsInTime actions)
    (hlatest : s.obeys (fun s action => !s.acceptsAt action) actions) :
    (actions.foldl Link.act s).IsOnSchedule since period (count + s.pingsIn actions) key := by
  induction actions generalizing s count with
  | nil => exact h
  | cons action actions ih =>
    obtain ⟨hheld, hheld'⟩ := Bool.and_eq_true_iff.mp hheld
    obtain ⟨hbegun, hbegun'⟩ := Bool.and_eq_true_iff.mp hbegun
    obtain ⟨hnone, hlatest'⟩ := Bool.and_eq_true_iff.mp hlatest
    have hnext := h.act hmanned hheld hbegun (by simpa using hnone)
    have hlast := ih hnext (hmanned.act action) hheld' hbegun' hlatest'
    rwa [Nat.add_assoc] at hlast

/-- How many pings a run writes for nobody's call: as many as its schedule asks for, and none that
it does not ask for. -/
structure KeepsAlive (config : Config) (actions : List Action) : Prop where
  /-- Without an interval none is written. -/
  silent : (∀ period, config.keepAliveInterval = some period → period.nanos = 0) →
    (fresh config).pingsIn actions = 0
  /-- None is written before a handshake is accepted. -/
  unasked : (fresh config).obeys (fun s action => !s.acceptsAt action) actions →
    (fresh config).pingsIn actions = 0
  /-- Whenever an open link is settled, one was written for every whole interval that has passed
  since the last handshake was accepted. -/
  onSchedule : ∀ before accepting after period, actions = before ++ accepting :: after →
    (runOf config before).acceptsAt accepting →
    (runOf config (before ++ [accepting])).obeys (fun s action => !s.acceptsAt action) after →
    config.keepAliveInterval = some period → period.nanos ≠ 0 →
    (fresh config).obeys callsWhileHeld actions → (fresh config).obeys beginsInTime actions →
    (runOf config actions).isClosed = false → (runOf config actions).IsSettled →
    NamesInstants (runOf config before).now period (runOf config actions).now →
      (runOf config (before ++ [accepting])).pingsIn after =
        ((runOf config actions).now - (runOf config before).now) * Clock.tick / period.nanos
  /-- None is written on a closed link, if those before were written as soon as their tasks had the
  writer. -/
  closed : ∀ before after, actions = before ++ after → (fresh config).obeys pingsAtOnce before →
    (runOf config before).isClosed → (runOf config before).pingsIn after = 0
  /-- None is written on a link that was given up and is not used any more. -/
  unused : ∀ before after, actions = before ++ after →
    (fresh config).obeys callsWhileHeld actions → (runOf config before).Unused →
      (runOf config before).pingsIn after = 0

/-- In every run, pings are sent on schedule. -/
theorem keepsAlive_runOf (config : Config) (actions : List Action) : KeepsAlive config actions where
  silent hnone := pingsIn_of_no_interval config hnone actions
  unasked hnone := pingsIn_of_unaccepted config hnone
  onSchedule before accepting after period := by
    rintro rfl haccepts hlatest hinterval hpositive hheld hbegun hopen hsettled hnames
    have hsplit : before ++ accepting :: after = (before ++ [accepting]) ++ after := by simp
    rw [hsplit, obeys_append, Bool.and_eq_true] at hheld hbegun
    have hmanned := manned_runOf config (before ++ [accepting])
    have hstart : (runOf config (before ++ [accepting])).IsOnSchedule (runOf config before).now
        period 0 (runOf config before).tasks.length := by
      rw [runOf_concat]
      refine isOnSchedule_act (manned_runOf config before) (fitsHandshakes_runOf config before)
        haccepts ?_ hpositive
      rwa [config_runOf]
    have hlast := hstart.run hmanned hheld.2 hbegun.2 hlatest
    rw [Nat.zero_add, ← runOf_append, ← hsplit] at hlast
    exact hlast.count_eq (relinquishes_runOf config _) hopen hsettled hnames
  closed before after := by
    rintro rfl hatOnce hclosed
    exact pingsIn_of_isClosed hclosed (isQuiet_runOf config hatOnce hclosed) after
  unused before after := by
    rintro rfl hheld hunused
    rw [obeys_append, Bool.and_eq_true] at hheld
    exact pingsIn_of_unused (manned_runOf config before) (relinquishes_runOf config before) hunused
      hheld.2

/-- Time passes, and then the task that sends pings takes as many turns as a ping needs. -/
def waitsToPing (gap : Nat) : List Action := .pass gap :: List.replicate 5 (.turn (.task 1))

/-- The task that an accepted handshake starts sends pings until 25 s have passed. -/
def pingsTwice : List Action :=
  .turn .reader :: List.replicate 2 (.turn (.task 1)) ++ waitsToPing 10000 ++ waitsToPing 15000

/-- With an interval of 10 s it writes two. -/
theorem keepsAlive_pingsTwice :
    (runOf ((Config.defaults "" 0).set (.keepAliveInterval (.ofSeconds 10)))
      (asksToEnter 0 ++ reception [⟨1, [0]⟩] ++ [.turn (.task 0)])).pingsIn pingsTwice = 2 := by
  have hkeeps := keepsAlive_runOf ((Config.defaults "" 0).set (.keepAliveInterval (.ofSeconds 10)))
    (asksToEnter 0 ++ reception [⟨1, [0]⟩] ++ .turn (.task 0) :: pingsTwice)
  exact hkeeps.onSchedule _ (.turn (.task 0)) _ (.ofSeconds 10) rfl rfl (by decide) rfl (by decide)
    (by decide) (by decide) rfl (by decide) (by decide)

end Link

end BeeProtocol
