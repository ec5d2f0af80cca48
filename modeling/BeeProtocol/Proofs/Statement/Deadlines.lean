import BeeProtocol.Proofs.Statement.Waiting

/-!
# Deadlines of waits on a statement

In every run of a statement, a wait keeps the deadline that it began with. Where no side can go on,
what the pending wait is for has not come and the clock has not reached its deadline. So a wait
times out only at its deadline, and only if what it is for has not come since it began.
-/

namespace BeeProtocol.StatementSession

variable {s : StatementSession}

/-! ### What one action does to a pending wait -/

/-- The response is in use as long as a call is pending, and the deadline of the call is at most its
bound ahead. -/
structure InUse (s : StatementSession) : Prop where
  /-- While a call is pending somebody has the response. -/
  holder : ∀ label call, s.call = some (label, call) → s.holder ≠ .nobody
  /-- The deadline of a call is at most its bound ahead. -/
  deadline : ∀ label call deadline, s.call = some (label, call) → call.deadline = some deadline →
    deadline ≤ s.now * Clock.tick + call.bound.nanos

/-- A wait begins with an action. A caller asks for something, with a bound of its own or the
default one, or a call has taken a row and waits for the next one with the same bound. -/
structure Begins (s : StatementSession) (default : Duration) (action : Action) (label : Nat)
    (call : PullCall) : Prop where
  /-- Its deadline is its bound after the time, unless no deadline can be named. -/
  deadline : call.deadline = Clock.after? s.now call.bound
  /-- A caller asks, or a call that has taken a row waits for the next one. -/
  asked : (∃ asked, action = .perform label (.pull call.pull asked) ∧
      call.bound = asked.getD default) ∨
    action = .turn .caller ∧ ∃ taking, s.call = some (label, taking) ∧
      (taking.turn s.now s.channel).1 = .again call ∧ call.bound = taking.bound

/-- The deadline of a call lies its bound after its begin. -/
theorem Begins.deadline_eq {default : Duration} {action : Action} {label : Nat} {call : PullCall}
    (h : s.Begins default action label call) {deadline : Nat}
    (hdeadline : call.deadline = some deadline) :
    deadline = s.now * Clock.tick + call.bound.nanos :=
  Clock.eq_of_after? (h.deadline.symm.trans hdeadline)

namespace DeskStep

variable {action : Action} {d : Desk} {label : Nat} {call : PullCall}

/-- Time stands still unless it is let pass. -/
theorem now_cases (h : DeskStep s action d) :
    d.now = s.now ∨ ∃ gap, action = .pass gap ∧ d.now = s.now + gap := by
  cases h with
  | aside _ gap haside hgap =>
    rcases hgap with rfl | hgap
    · exact .inl rfl
    · exact .inr ⟨gap, hgap, rfl⟩
  | _ => exact .inl rfl

/-- The clock at the desk never goes back. -/
theorem now_le (h : DeskStep s action d) : s.now ≤ d.now := by
  rcases h.now_cases with hsame | ⟨gap, -, hpass⟩ <;> omega

/-- A pending call was pending before, or its wait begins with the action. -/
theorem call_cases (h : DeskStep s action d) (hcall : d.call = some (label, call)) :
    s.call = some (label, call) ∨
      d.now = s.now ∧ s.Begins s.channel.bound action label call := by
  cases h with
  | aside _ gap haside hgap => exact .inl hcall
  | drop _ hfree => exact .inl hcall
  | giveUp _ holder hother => cases hcall
  | start label' pull asked holder hfree hholder =>
    obtain ⟨rfl, rfl⟩ := Prod.mk.inj (Option.some.inj hcall)
    exact .inr ⟨rfl, rfl, .inl ⟨asked, rfl, rfl⟩⟩
  | sleep label' call' hbefore hturn => exact .inl hcall
  | again label' taking next hbefore hturn =>
    obtain ⟨rfl, rfl⟩ := Prod.mk.inj (Option.some.inj hcall)
    obtain ⟨hbound, hdeadline, -⟩ := PullCall.turn_again hturn
    rw [← hbound] at hdeadline
    exact .inr ⟨rfl, hdeadline, .inr ⟨rfl, taking, hbefore, hturn, hbound⟩⟩
  | finish label' call' result holder hbefore hturn => cases hcall

/-- Only the caller's turn reports a result. -/
theorem finished_eq (h : DeskStep s action d) (hother : action ≠ .turn .caller) :
    d.finished = s.finished := by
  cases h with
  | aside | drop | giveUp | start => rfl
  | sleep | again | finish => exact absurd rfl hother

/-- While there is a call somebody has the response. -/
theorem holder_of_call (h : DeskStep s action d) (hs : s.InUse)
    (hcall : d.call = some (label, call)) : d.holder ≠ .nobody := by
  cases h with
  | aside _ gap haside hgap => exact hs.holder label call hcall
  | drop _ hfree => simp
  | giveUp _ holder hother => cases hcall
  | start label' pull asked holder hfree hholder => exact hholder
  | sleep label' call' hbefore hturn => exact hs.holder label call hcall
  | again label' before next hbefore hturn => exact hs.holder label' before hbefore
  | finish label' call' result holder hbefore hturn => cases hcall

/-- A pending wait has its turn: it sleeps on, goes on with the next wait or ends. -/
theorem turn_cases (h : DeskStep s (.turn .caller) d) (hs : s.InUse)
    (hcall : s.call = some (label, call)) :
    (call.turn s.now s.channel).1 = .asleep ∧ d = s.desk ∨
      (∃ next, (call.turn s.now s.channel).1 = .again next ∧ d.call = some (label, next)) ∨
      ∃ result, (call.turn s.now s.channel).1 = .finished result ∧ d.call = none ∧
        d.finished = s.finished ++ [(label, result)] := by
  have hheld : s.holder ≠ .nobody := hs.holder label call hcall
  cases h with
  | aside _ gap haside hgap => simp [hcall] at haside
  | drop _ hfree => exact absurd hfree hheld
  | giveUp _ holder hother => exact absurd rfl hother
  | sleep label' call' hcall' hturn =>
    obtain ⟨rfl, rfl⟩ := Prod.mk.inj (Option.some.inj (hcall.symm.trans hcall'))
    exact .inl ⟨hturn, rfl⟩
  | again label' call' next hcall' hturn =>
    obtain ⟨rfl, rfl⟩ := Prod.mk.inj (Option.some.inj (hcall.symm.trans hcall'))
    exact .inr (.inl ⟨next, hturn, rfl⟩)
  | finish label' call' result holder hcall' hturn =>
    obtain ⟨rfl, rfl⟩ := Prod.mk.inj (Option.some.inj (hcall.symm.trans hcall'))
    exact .inr (.inr ⟨result, hturn, rfl, rfl⟩)

/-- A wait that sleeps on changes nothing. -/
theorem eq_of_asleep (h : DeskStep s (.turn .caller) d) (hs : s.InUse)
    (hcall : s.call = some (label, call)) (hasleep : (call.turn s.now s.channel).1 = .asleep) :
    d = s.desk := by
  rcases h.turn_cases hs hcall with ⟨-, hsame⟩ | ⟨next, hagain, -⟩ | ⟨result, hfinished, -⟩
  · exact hsame
  · cases hagain.symm.trans hasleep
  · cases hfinished.symm.trans hasleep

/-- A wait that ends is reported with its result. -/
theorem eq_of_finished (h : DeskStep s (.turn .caller) d) (hs : s.InUse)
    (hcall : s.call = some (label, call)) {result : PullResult}
    (hfinished : (call.turn s.now s.channel).1 = .finished result) :
    d.call = none ∧ d.finished = s.finished ++ [(label, result)] := by
  rcases h.turn_cases hs hcall with ⟨hasleep, -⟩ | ⟨next, hagain, -⟩ | ⟨result', hended, hreport⟩
  · cases hasleep.symm.trans hfinished
  · cases hagain.symm.trans hfinished
  · obtain rfl := PullProgress.finished.inj (hended.symm.trans hfinished)
    exact hreport

/-- A wait that is still pending after the caller's turn has slept on. -/
theorem asleep_of_pending (h : DeskStep s (.turn .caller) d) (hs : s.InUse)
    (hbefore : s.call = some (label, call)) (hafter : d.call = some (label, call)) :
    (call.turn s.now s.channel).1 = .asleep := by
  rcases h.turn_cases hs hbefore with ⟨hasleep, -⟩ | ⟨next, hagain, hnext⟩ | ⟨result, -, hnone, -⟩
  · exact hasleep
  · obtain ⟨-, rfl⟩ := Prod.mk.inj (Option.some.inj (hafter.symm.trans hnext))
    exact absurd rfl (PullCall.turn_again hagain).2.2
  · cases hafter.symm.trans hnone

end DeskStep

namespace InUse

/-- The response stays in use by its call whatever is done. -/
theorem act (hs : s.InUse) (action : Action) : (s.act action).InUse := by
  have hstep := s.deskStep_act action
  constructor
  · intro label call hcall
    exact hstep.holder_of_call hs hcall
  · intro label call deadline hcall hdeadline
    have hnow : s.now ≤ (s.act action).now := hstep.now_le
    rcases hstep.call_cases hcall with hbefore | ⟨hsame, hbegins⟩
    · have hbound := hs.deadline label call deadline hbefore hdeadline
      exact hbound.trans (Nat.add_le_add_right (Nat.mul_le_mul_right _ hnow) _)
    · have hsame : (s.act action).now = s.now := hsame
      rw [hbegins.deadline_eq hdeadline, hsame]

/-- A fresh response is in use by no call. -/
theorem fresh (id : UInt32) (capacity : Nat) (bound : Duration) :
    (fresh id capacity bound).InUse where
  holder := fun _ _ hcall => by cases hcall
  deadline := fun _ _ _ hcall => by cases hcall

/-- While a wait is pending, what has not come after an action had not come before it. -/
theorem awaits (hs : s.InUse) {action : Action} {label : Nat} {call : PullCall}
    (hbefore : s.call = some (label, call)) (hafter : (s.act action).call = some (label, call))
    (hawaits : call.Awaits (s.act action).channel) : call.Awaits s.channel := by
  by_cases hturn : action = .turn .caller
  · rw [hturn] at hafter
    have hasleep := (s.deskStep_act (.turn .caller)).asleep_of_pending hs hbefore hafter
    exact (PullCall.asleep_iff.mp hasleep).1
  · have hkeeps := (s.channelStep_act action).keeps (hs.holder label call hbefore) hturn
    exact hkeeps.awaits hawaits

end InUse

/-! ### The turn of a pending wait -/

section Turn

variable {label : Nat} {call : PullCall}

/-- Which call is pending does not matter to who is woken. -/
theorem wake_withCall (s : StatementSession) (running : Option (Nat × PullCall))
    (side : StatementSide) :
    ({ s with call := running } : StatementSession).wake side =
      { s.wake side with call := running } := by
  unfold wake
  split <;> rfl

/-- Who is told of a new state of the channel is no matter of which call it is. -/
theorem setChannel_withCall (hcall : s.call.isSome) (running : Nat × PullCall) (c : Channel) :
    ({ s with call := some running } : StatementSession).setChannel c =
      { s.setChannel c with call := some running } := by
  have hwake := wake_withCall { s with channel := c } (some running) .caller
  simp only [setChannel, hcall, Option.isSome_some, Bool.and_true]
  cases s.channel.tellsCallers c <;> cases s.channel.tellsHandler c
  · rfl
  · exact wake_withCall { s with channel := c } (some running) .handler
  · exact hwake
  · have hboth := wake_withCall ({ s with channel := c }.wake .caller) (some running) .handler
    rw [← hwake] at hboth
    exact hboth

/-- A call whose wait is met does not look at its deadline. -/
theorem callerTurn_of_met (hcall : s.call = some (label, call)) (hmet : ¬ call.Awaits s.channel) :
    s.callerTurn =
      ({ s with call := some (label, { call with deadline := none }) } :
        StatementSession).callerTurn := by
  have hsome : s.call.isSome := by simp [hcall]
  have hset := setChannel_withCall hsome (label, { call with deadline := none })
    (call.turn s.now s.channel).2
  have hawake : (call.turn s.now s.channel).1 ≠ .asleep := fun hasleep =>
    hmet (PullCall.asleep_iff.mp hasleep).1
  unfold callerTurn
  rw [hcall]
  dsimp only
  rw [← PullCall.turn_of_met hmet, hset]
  cases hprogress : (call.turn s.now s.channel).1 with
  | again next => rfl
  | asleep => exact absurd hprogress hawake
  | finished result => rfl

/-- The turn of a wait that finds what it waits for goes as it would without a deadline. -/
theorem act_turn_of_met (hcall : s.call = some (label, call)) (hmet : ¬ call.Awaits s.channel) :
    s.act (.turn .caller) =
      ({ s with call := some (label, { call with deadline := none }) } : StatementSession).act
        (.turn .caller) := by
  let idle : StatementSession := { s with ready := s.ready.erase .caller }
  have hturn : idle.callerTurn =
      ({ idle with call := some (label, { call with deadline := none }) } :
        StatementSession).callerTurn := callerTurn_of_met hcall hmet
  dsimp only [act]
  unfold turnOf
  dsimp only [idle] at hturn ⊢
  rw [hturn]

/-- How a pending wait stands and what its turn does. -/
structure TurnsInTime (s : StatementSession) (label : Nat) (call : PullCall) : Prop where
  /-- Where no side can go on, what the wait is for has not come, and the clock has not reached the
  deadline. -/
  quiet : s.ready = [] → call.Awaits s.channel ∧
    ∀ deadline, call.deadline = some deadline → s.now < Clock.dueTick deadline
  /-- With nothing there and the deadline ahead, or without a deadline, it sleeps on. -/
  sleeps : call.Awaits s.channel →
    (∀ deadline, call.deadline = some deadline → s.now * Clock.tick < deadline) →
      (s.act (.turn .caller)).desk = s.desk
  /-- With nothing there and the deadline passed, it ends with the timeout. -/
  lapses : call.Awaits s.channel →
    ∀ deadline, call.deadline = some deadline → deadline ≤ s.now * Clock.tick →
      (s.act (.turn .caller)).call = none ∧
        (s.act (.turn .caller)).finished = s.finished ++ [(label, call.lapse s.channel)]
  /-- With something there, it goes on as it would without a deadline. -/
  met : ¬ call.Awaits s.channel → s.act (.turn .caller) =
    ({ s with call := some (label, { call with deadline := none }) } : StatementSession).act
      (.turn .caller)
  /-- Nothing but its turn ends it with a result. -/
  elsewhere : ∀ action, action ≠ .turn .caller → (s.act action).finished = s.finished
  /-- With the bound 0 its deadline has passed from the beginning. -/
  atOnce : call.bound.nanos = 0 → ∀ deadline, call.deadline = some deadline →
    deadline ≤ s.now * Clock.tick

/-- A call that nobody has woken still waits, and its deadline is ahead. -/
theorem quiet_of_alert (halert : s.Alert) (hcall : s.call = some (label, call))
    (hquiet : s.ready = []) : call.Awaits s.channel ∧
      ∀ deadline, call.deadline = some deadline → s.now < Clock.dueTick deadline := by
  have hready : .caller ∉ s.ready := by
    rw [hquiet]
    exact List.not_mem_nil
  have hblocked := (halert .caller).resolve_left hready
  obtain ⟨hawaits, hdue⟩ := PullCall.asleep_iff.mp (hblocked label call hcall)
  refine ⟨hawaits, fun deadline hdeadline => (Clock.lt_dueTick_iff _ _).mpr ?_⟩
  exact PullCall.isDue_eq_false_iff.mp hdue deadline hdeadline

/-- The turns of a call that has the response are in time. -/
theorem turnsInTime_of_inUse (hs : s.InUse) (halert : s.Alert)
    (hcall : s.call = some (label, call)) : s.TurnsInTime label call := by
  have hstep := s.deskStep_act (.turn .caller)
  refine ⟨quiet_of_alert halert hcall, ?_, ?_, act_turn_of_met hcall, ?_, ?_⟩
  · intro hawaits hahead
    refine hstep.eq_of_asleep hs hcall (PullCall.asleep_iff.mpr ⟨hawaits, ?_⟩)
    exact PullCall.isDue_eq_false_iff.mpr hahead
  · intro hawaits deadline hdeadline hpast
    refine hstep.eq_of_finished hs hcall ?_
    rw [PullCall.turn_of_due hawaits (PullCall.isDue_of_deadline hdeadline hpast)]
  · intro action hother
    exact (s.deskStep_act action).finished_eq hother
  · intro hzero deadline hdeadline
    have hbound := hs.deadline label call deadline hcall hdeadline
    rwa [hzero, Nat.add_zero] at hbound

end Turn

/-! ### Whole runs -/

section Runs

variable (id : UInt32) (capacity : Nat) (bound : Duration)

/-- The statement after some actions from its beginning. -/
def sessionOf (actions : List Action) : StatementSession := (runOf id capacity bound actions).1

/-- A pending wait began with one action of the run. It has been the same wait since, whatever else
was done, and what it is for has not come at any time in between if it has not come by now. -/
def Since (actions : List Action) (label : Nat) (call : PullCall) : Prop :=
  ∃ before action during, actions = before ++ action :: during ∧
    (sessionOf id capacity bound before).Begins bound action label call ∧
    ∀ moment, moment <+: during →
      (sessionOf id capacity bound (before ++ action :: moment)).call = some (label, call) ∧
      (call.Awaits (sessionOf id capacity bound actions).channel →
        call.Awaits (sessionOf id capacity bound (before ++ action :: moment)).channel)

/-- Time never passes the deadline of a pending wait, since the clock stops at every deadline for
the sides to run. -/
def Punctual (actions : List Action) : Prop :=
  ∀ before gap after, actions = before ++ .pass gap :: after → ∀ label call deadline,
    (sessionOf id capacity bound before).call = some (label, call) →
      call.deadline = some deadline →
        (sessionOf id capacity bound before).now + gap ≤ Clock.dueTick deadline

/-- How a pending wait of a run began, how it stands and what its turn does. -/
structure WaitsInTime (actions : List Action) (label : Nat) (call : PullCall) : Prop where
  /-- The wait has its deadline from its beginning. -/
  since : Since id capacity bound actions label call
  /-- The wait stands as it should, and so does what its turn does. -/
  standing : (sessionOf id capacity bound actions).TurnsInTime label call
  /-- Where the clock stops at every deadline, it has not gone past this one. -/
  punctual : Punctual id capacity bound actions → ∀ deadline, call.deadline = some deadline →
    (sessionOf id capacity bound actions).now ≤ Clock.dueTick deadline

variable {id capacity bound}

/-- The log does not change what an action does. -/
theorem follow_append_fst (s : StatementSession) (h : StatementHistory) (actions : List Action)
    (action : Action) :
    (s.follow h (actions ++ [action])).1 = (s.follow h actions).1.act action := by
  induction actions generalizing s h with
  | nil => rfl
  | cons first actions ih => exact ih (s.act first) (s.note h first)

/-- One more action is done after the others. -/
theorem sessionOf_append (actions : List Action) (action : Action) :
    sessionOf id capacity bound (actions ++ [action]) =
      (sessionOf id capacity bound actions).act action :=
  follow_append_fst _ _ actions action

/-- In every session a call has the response that it waits on. -/
theorem inUse_sessionOf (actions : List Action) : (sessionOf id capacity bound actions).InUse :=
  follow_invariant (P := fun s _ => s.InUse) (fun _ _ action hs => hs.act action)
    (.fresh id capacity bound) actions

/-- The bound of the waits is the one that the response was opened with. -/
theorem bound_sessionOf (actions : List Action) :
    (sessionOf id capacity bound actions).channel.bound = bound :=
  follow_invariant (P := fun s _ => s.channel.bound = bound)
    (fun s _ action hbound => (s.channelStep_act action).bound_eq.trans hbound) rfl actions

/-- Every call that is under way has begun with some action, and nothing has come since. -/
theorem since_sessionOf {actions : List Action} {label : Nat} {call : PullCall}
    (hcall : (sessionOf id capacity bound actions).call = some (label, call)) :
    Since id capacity bound actions label call := by
  induction actions using List.reverseRecOn with
  | nil => cases hcall
  | append_singleton actions action ih =>
    have happend : sessionOf id capacity bound (actions ++ [action]) =
        (sessionOf id capacity bound actions).act action := sessionOf_append actions action
    rw [happend] at hcall
    by_cases hbefore : (sessionOf id capacity bound actions).call = some (label, call)
    · obtain ⟨before, first, during, rfl, hbegins, hmoments⟩ := ih hbefore
      refine ⟨before, first, during ++ [action], by simp, hbegins, fun moment hmoment => ?_⟩
      rcases List.prefix_concat_iff.mp hmoment with rfl | hmoment
      · rw [← List.cons_append, ← List.append_assoc, happend]
        exact ⟨hcall, fun hawaits => hawaits⟩
      · obtain ⟨hpending, hsame⟩ := hmoments moment hmoment
        refine ⟨hpending, fun hawaits => hsame ?_⟩
        rw [happend] at hawaits
        exact (inUse_sessionOf _).awaits hbefore hcall hawaits
    · have hstep := (sessionOf id capacity bound actions).deskStep_act action
      obtain ⟨-, hbegins⟩ := (hstep.call_cases hcall).resolve_left hbefore
      rw [bound_sessionOf] at hbegins
      refine ⟨actions, action, [], rfl, hbegins, fun moment hmoment => ?_⟩
      obtain rfl := List.prefix_nil.mp hmoment
      rw [happend]
      exact ⟨hcall, fun hawaits => hawaits⟩

/-- If nobody dawdles the clock does not pass the tick at which a call is due. -/
theorem Punctual.le_dueTick {actions : List Action} (h : Punctual id capacity bound actions)
    {label : Nat} {call : PullCall}
    (hcall : (sessionOf id capacity bound actions).call = some (label, call)) {deadline : Nat}
    (hdeadline : call.deadline = some deadline) :
    (sessionOf id capacity bound actions).now ≤ Clock.dueTick deadline := by
  induction actions using List.reverseRecOn with
  | nil => cases hcall
  | append_singleton actions action ih =>
    have hpunctual : Punctual id capacity bound actions := by
      rintro before gap after rfl
      exact h before gap (after ++ [action]) (by simp)
    rw [sessionOf_append] at hcall ⊢
    have hstep := (sessionOf id capacity bound actions).deskStep_act action
    rcases hstep.call_cases hcall with hbefore | ⟨hsame, hbegins⟩
    · rcases hstep.now_cases with hsame | ⟨gap, rfl, hpass⟩
      · exact hsame.trans_le (ih hpunctual hbefore)
      · exact hpass.trans_le (h actions gap [] rfl label call deadline hbefore hdeadline)
    · refine hsame.trans_le (Clock.le_dueTick ?_)
      rw [hbegins.deadline_eq hdeadline]
      exact Nat.le_add_right _ _

/-- In every run, a pending wait has kept its deadline, sleeps only until what it is for has come
or the deadline has passed, and times out only if nothing has come until then. -/
theorem waitsInTime_sessionOf {actions : List Action} {label : Nat} {call : PullCall}
    (hcall : (sessionOf id capacity bound actions).call = some (label, call)) :
    WaitsInTime id capacity bound actions label call where
  since := since_sessionOf hcall
  standing := turnsInTime_of_inUse (inUse_sessionOf actions)
    (alert_runOf id capacity bound actions) hcall
  punctual := fun hpunctual _ hdeadline => hpunctual.le_dueTick hcall hdeadline

/-- A caller asks for a row for at most a second, and the time passes. Meanwhile the header comes,
wakes the caller and lets it sleep on. -/
def headerOnly : List Action :=
  [.perform 0 (.pull .hasNext (some (.ofSeconds 1))), .turn .caller,
    .feed [0, 0, 0, 7, 0, 1, 1, 97, 2], .turn .handler, .turn .handler, .pass 600, .turn .caller,
    .pass 400]

/-- A wait for a row of a statement that has only a header ends after its second. -/
theorem waitsInTime_headerOnly :
    (sessionOf 7 1 (.ofSeconds 30) headerOnly).call =
        some (0, .start 0 .hasNext (.ofSeconds 1)) ∧
      WaitsInTime 7 1 (.ofSeconds 30) headerOnly 0 (.start 0 .hasNext (.ofSeconds 1)) ∧
      ((sessionOf 7 1 (.ofSeconds 30) headerOnly).act (.turn .caller)).finished =
        [(0, .failed (.timeout "statement 7: no row within 1s"))] :=
  ⟨rfl, waitsInTime_sessionOf rfl, rfl⟩

end Runs

end BeeProtocol.StatementSession
