import BeeProtocol.Proofs.Statement.Waking

/-!
# Waits that are woken in time

A wait sleeps only as long as what it waits for has not come and its deadline has not passed. The
deadline is set once, when the wait begins, and stays whatever wakes the caller in between. A wait
that finds what it waits for ends as it would without a deadline, so it times out only if nothing
has come between its beginning and its deadline.
-/

namespace BeeProtocol

/-- The first tick of the clock at which a deadline is due. -/
def Clock.dueTick (deadline : Nat) : Nat := (deadline + (tick - 1)) / tick

/-- A deadline is ahead exactly before the tick at which it is due. -/
theorem Clock.lt_dueTick_iff (now deadline : Nat) :
    now < dueTick deadline ↔ now * tick < deadline := by
  simp only [dueTick, tick]
  omega

/-- A deadline that is not past is due no earlier than now. -/
theorem Clock.le_dueTick {now deadline : Nat} (h : now * tick ≤ deadline) :
    now ≤ dueTick deadline := by
  simp only [dueTick, tick] at *
  omega

/-- A deadline lies its span after the present. -/
theorem Clock.eq_of_after? {now instant : Nat} {span : Duration}
    (h : after? now span = some instant) : instant = now * tick + span.nanos := by
  unfold after? at h
  dsimp only at h
  split at h
  · exact (Option.some.inj h).symm
  · cases h

/-! ### One turn of a wait -/

namespace PullCall

/-- What a call waits for has not come: neither the header or a row, nor a failure or an end. -/
def Awaits (call : PullCall) (c : Channel) : Prop :=
  c.failure = none ∧ c.isDone = false ∧
    match call.pull with
    | .columns => c.header = none
    | _ => c.rows = []

/-- What a call ends with at its deadline. -/
def lapse (call : PullCall) (c : Channel) : PullResult :=
  match call.pull with
  | .columns => .failed (call.timeout c "column header")
  | .stream taken => .streamed taken (some (call.timeout c "row"))
  | _ => .failed (call.timeout c "row")

variable {call : PullCall} {now : Nat} {c c' : Channel}

/-- A call is not due exactly while its deadline, if it has one, is ahead. -/
theorem isDue_eq_false_iff : call.isDue now = false ↔
    ∀ deadline, call.deadline = some deadline → now * Clock.tick < deadline := by
  unfold isDue
  cases call.deadline <;> simp [Clock.isDue]

/-- A call is due once its deadline is past. -/
theorem isDue_of_deadline {deadline : Nat} (h : call.deadline = some deadline)
    (hpast : deadline ≤ now * Clock.tick) : call.isDue now = true := by
  rw [isDue, h]
  exact decide_eq_true hpast

/-- A call for the header waits for it. -/
theorem awaits_columns_iff (h : call.pull = .columns) :
    call.Awaits c ↔ c.headerReady? = none := by
  rw [Awaits, h, Channel.headerReady?_eq_none_iff]
  tauto

/-- A call for rows waits for one. -/
theorem awaits_rows_iff (h : call.pull ≠ .columns) : call.Awaits c ↔ c.rowReady? = none := by
  rw [Awaits, Channel.rowReady?_eq_none_iff]
  cases hpull : call.pull with
  | columns => exact absurd hpull h
  | hasNext | nextRow | collect taken | stream taken => tauto

/-- A wait sleeps on exactly if nothing has come and its deadline is ahead. -/
theorem asleep_iff :
    (call.turn now c).1 = .asleep ↔ call.Awaits c ∧ call.isDue now = false := by
  rw [turn_asleep_iff]
  cases hpull : call.pull with
  | columns => rw [awaits_columns_iff hpull, headerKnown?_eq_none_iff]
  | hasNext | nextRow | collect taken | stream taken =>
    rw [awaits_rows_iff (by simp [hpull]), rowKnown?_eq_none_iff]

/-- A wait that has passed its deadline with nothing there ends with the timeout. -/
theorem turn_of_due (hawaits : call.Awaits c) (hdue : call.isDue now = true) :
    call.turn now c = (.finished (call.lapse c), c) := by
  unfold turn lapse
  cases hpull : call.pull with
  | columns =>
    have hready := (awaits_columns_iff hpull).mp hawaits
    simp [headerKnown?, hready, hdue]
  | hasNext | nextRow | collect taken | stream taken =>
    have hready := (awaits_rows_iff (by simp [hpull])).mp hawaits
    simp [rowKnown?, hready, hdue, fail, hpull]

/-- A wait that finds what it waits for goes on as it would without a deadline. -/
theorem turn_of_met (hmet : ¬ call.Awaits c) :
    call.turn now c = { call with deadline := none }.turn now c := by
  unfold turn
  cases hpull : call.pull with
  | columns =>
    rw [awaits_columns_iff hpull] at hmet
    obtain ⟨known, hknown⟩ := Option.ne_none_iff_exists'.mp hmet
    simp [headerKnown?, hknown]
  | hasNext | nextRow | collect taken | stream taken =>
    rw [awaits_rows_iff (by simp [hpull])] at hmet
    obtain ⟨known, hknown⟩ := Option.ne_none_iff_exists'.mp hmet
    simp [rowKnown?, hknown, takeRow, took, fail, exhausted, hpull]

/-- A call goes on with a new wait of the same bound, and only after it has taken a row. -/
theorem turn_again {next : PullCall} (h : (call.turn now c).1 = .again next) :
    next.bound = call.bound ∧ next.deadline = Clock.after? now call.bound ∧
      next.pull ≠ call.pull := by
  rcases call.turn_cases now c with hpasses | ⟨htakes, hfailure, row, rows, hrows⟩
  · rcases hpasses.2 with hasleep | ⟨result, hresult, -⟩
    · rw [hasleep] at h
      cases h
    · rw [hresult] at h
      cases h
  · rw [turn_takes htakes now hfailure hrows] at h
    unfold took at h
    split at h
    · rename_i taken hpull
      obtain rfl := PullProgress.again.inj h
      exact ⟨rfl, rfl, by simp [start, hpull]⟩
    · rename_i taken hpull
      obtain rfl := PullProgress.again.inj h
      exact ⟨rfl, rfl, by simp [start, hpull]⟩
    · cases h

/-- A header that fails with a timeout does so because the statement has. -/
theorem failure_of_headerReady? {what : String}
    (h : c.headerReady? = some (.error (.timeout what))) : c.failure = some (.timeout what) := by
  unfold Channel.headerReady? at h
  split at h
  · cases h
    assumption
  · cases h
  · split at h <;> cases h

/-- A row that fails does so because the statement has. -/
theorem failure_of_rowReady? {reason : ClientError} (h : c.rowReady? = some (.error reason)) :
    c.failure = some reason := by
  unfold Channel.rowReady? at h
  split at h
  · cases h
    assumption
  · cases h
  · split at h <;> cases h

/-- Only a wait that has passed its deadline with nothing there times out, unless the statement has
failed with a timeout. -/
theorem of_turn_timeout {what : String}
    (h : (call.turn now c).1 = .finished (.failed (.timeout what))) :
    c.failure = some (.timeout what) ∨ call.Awaits c ∧ call.isDue now = true := by
  by_cases hawaits : call.Awaits c
  · refine .inr ⟨hawaits, ?_⟩
    by_contra hearly
    rw [asleep_iff.mpr ⟨hawaits, by simpa using hearly⟩] at h
    cases h
  left
  by_cases hcolumns : call.pull = .columns
  · rw [awaits_columns_iff hcolumns] at hawaits
    obtain ⟨known, hknown⟩ := Option.ne_none_iff_exists'.mp hawaits
    have hready : call.headerKnown? now c = some known := by rw [headerKnown?, hknown]
    simp only [turn, hcolumns, hready] at h
    cases known with
    | ok header => cases h
    | error reason =>
      cases h
      exact failure_of_headerReady? hknown
  · rw [awaits_rows_iff hcolumns] at hawaits
    obtain ⟨known, hknown⟩ := Option.ne_none_iff_exists'.mp hawaits
    have hready : call.rowKnown? now c = some known := by rw [rowKnown?, hknown]
    rcases known with reason | _ | _
    · have hreason : reason = .timeout what := by
        cases hpull : call.pull with
        | columns => exact absurd hpull hcolumns
        | hasNext | nextRow | collect taken | stream taken =>
          simp only [turn, hpull, hready, fail] at h
          cases h <;> rfl
      exact failure_of_rowReady? (hreason ▸ hknown)
    · cases hpull : call.pull with
      | columns => exact absurd hpull hcolumns
      | hasNext | nextRow | collect taken | stream taken =>
        simp only [turn, hpull, hready, exhausted] at h
        cases h
    · obtain ⟨hfailure, hsome⟩ := of_rowKnown?_true hready
      obtain ⟨row, rows, hrows⟩ := List.exists_cons_of_ne_nil hsome
      cases hpull : call.pull with
      | columns => exact absurd hpull hcolumns
      | hasNext =>
        simp only [turn, hpull, hready] at h
        cases h
      | nextRow | collect taken | stream taken =>
        rw [turn_takes (by rw [hpull]; rfl) now hfailure hrows] at h
        simp only [took, hpull] at h
        cases h

/-- A call that asks for one thing times out exactly if its deadline has passed with nothing there,
unless the statement has failed with a timeout. -/
theorem exists_turn_timeout_iff (hone : call.pull.consumes = false)
    (huntimed : ∀ what, c.failure ≠ some (.timeout what)) :
    (∃ what, (call.turn now c).1 = .finished (.failed (.timeout what))) ↔
      call.Awaits c ∧ call.isDue now = true := by
  constructor
  · rintro ⟨what, htimeout⟩
    exact (of_turn_timeout htimeout).resolve_left (huntimed what)
  · rintro ⟨hawaits, hdue⟩
    rw [turn_of_due hawaits hdue]
    cases hpull : call.pull with
    | columns | hasNext | nextRow => exact ⟨_, by rw [lapse, hpull]; rfl⟩
    | collect taken | stream taken =>
      rw [hpull] at hone
      cases hone

/-- Only a call that takes several rows goes on with a new wait. -/
theorem consumes_of_again {next : PullCall} (h : (call.turn now c).1 = .again next) :
    call.pull.consumes = true := by
  rcases call.turn_cases now c with hpasses | ⟨htakes, hfailure, row, rows, hrows⟩
  · rcases hpasses.2 with hasleep | ⟨result, hresult, -⟩
    · cases hasleep.symm.trans h
    · cases hresult.symm.trans h
  · rw [turn_takes htakes now hfailure hrows] at h
    unfold took at h
    split at h
    · rename_i taken hpull
      rw [hpull, Pull.consumes]
    · rename_i taken hpull
      rw [hpull, Pull.consumes]
    · cases h

/-- The first wait of a call is due once its bound has passed, unless that is too long for a
deadline. -/
theorem isDue_start_iff {began : Nat} (pull : Pull) {bound : Duration} :
    (start began pull bound).isDue now = true ↔
      began * Clock.tick + bound.nanos < Clock.horizon ∧
        began * Clock.tick + bound.nanos ≤ now * Clock.tick := by
  have hdeadline : (start began pull bound).isDue now =
      (Clock.after? began bound).any (Clock.isDue now) := rfl
  rw [hdeadline, Option.any_eq_true]
  constructor
  · rintro ⟨instant, hafter, hdue⟩
    obtain ⟨hroom, hinstant⟩ := Option.ite_none_right_eq_some.mp hafter
    obtain rfl := Option.some.inj hinstant
    exact ⟨hroom, of_decide_eq_true hdue⟩
  · rintro ⟨hroom, hdue⟩
    exact ⟨_, if_pos hroom, decide_eq_true hdue⟩

end PullCall

/-! ### What is there stays there -/

namespace Channel

variable {c c' : Channel}

/-- Nothing that a wait may look for goes: what is missing after a change was missing before it. -/
structure Keeps (before after : Channel) : Prop where
  /-- A failure stays. -/
  failure : after.failure = none → before.failure = none
  /-- An end stays. -/
  isDone : after.isDone = false → before.isDone = false
  /-- A header stays. -/
  header : after.header = none → before.header = none
  /-- Some row stays. -/
  rows : after.rows = [] → before.rows = []

/-- What two changes keep is kept by both together. -/
theorem Keeps.trans {c'' : Channel} (h : c.Keeps c') (h' : c'.Keeps c'') : c.Keeps c'' :=
  ⟨fun hnone => h.failure (h'.failure hnone), fun hnone => h.isDone (h'.isDone hnone),
    fun hnone => h.header (h'.header hnone), fun hnone => h.rows (h'.rows hnone)⟩

/-- A change keeps what waits look for if it keeps the answer and leaves a row. -/
theorem Keeps.of_answer (hanswer : c'.answer = c.answer) (hrows : c'.rows = [] → c.rows = []) :
    c.Keeps c' := by
  have hdone := isDone_of_answer hanswer
  simp only [answer, Prod.mk.injEq] at hanswer
  exact ⟨hanswer.2.2.symm.trans, hdone.symm.trans, hanswer.2.1.symm.trans, hrows⟩

/-- What has not come after a change had not come before it. -/
theorem Keeps.awaits (h : c.Keeps c') {call : PullCall} (hawaits : call.Awaits c') :
    call.Awaits c := by
  obtain ⟨hfailure, hdone, hgoal⟩ := hawaits
  refine ⟨h.failure hfailure, h.isDone hdone, ?_⟩
  cases hpull : call.pull with
  | columns =>
    rw [hpull] at hgoal
    exact h.header hgoal
  | hasNext | nextRow | collect taken | stream taken =>
    rw [hpull] at hgoal
    exact h.rows hgoal

/-- The end of a statement keeps what waits look for. -/
theorem keeps_finish (c : Channel) (failure : Option ClientError) : c.Keeps (c.finish failure) := by
  refine ⟨?_, fun hgoesOn => ?_, ?_, by simp⟩
  · unfold finish
    split <;> simp +contextual
  · rw [c.finish_isDone failure] at hgoesOn
    cases hgoesOn
  · unfold finish
    split <;> simp

/-- What a statement hears keeps what waits look for. -/
theorem keeps_hear (c : Channel) (signal : Signal) : c.Keeps (c.hear signal).1 := by
  cases signal with
  | decoded event =>
    cases event with
    | columns header =>
      dsimp only [hear, apply, takeHeader]
      split
      · rename_i hphase
        exact ⟨fun h => h, by simp [isDone, hphase], by simp, fun h => h⟩
      · exact .of_answer rfl fun h => h
    | row values => exact .of_answer rfl fun h => h
    | abort => exact c.keeps_finish _
    | error reason => exact c.keeps_finish _
  | malformed reason => exact c.keeps_finish _
  | abandoned reason => exact c.keeps_finish _

/-- A row that is stored keeps what waits look for. -/
theorem keeps_store (c : Channel) (row : Row) : c.Keeps (c.store row).1 := by
  refine .of_answer (c.store_answer row) ?_
  cases hdropped : c.isDropped with
  | true =>
    unfold store
    cases c.slot <;> simp [hdropped]
  | false =>
    rw [store_rows hdropped row, List.append_eq_nil_iff]
    exact And.left

/-- A handler that is let go of keeps what waits look for. -/
theorem keeps_letGo (c : Channel) : c.Keeps c.letGo :=
  .trans (.of_answer c.cutOff_answer (by simp)) (c.cutOff.keeps_finish _)

end Channel

namespace StatementSession

variable {s : StatementSession}

/-- What an action may do to the channel. -/
inductive ChannelStep (s : StatementSession) : Action → Channel → Prop
  /-- Nothing. -/
  | same (action : Action) : ChannelStep s action s.channel
  /-- The statement is failed from outside. -/
  | finish (reason : ClientError) :
    ChannelStep s (.abandon reason) (s.channel.finish (some reason))
  /-- The decoding is cut off. -/
  | cutOff : ChannelStep s .cutOff s.channel.cutOff
  /-- The handler is let go of. -/
  | letGo : ChannelStep s .dropHandler s.channel.letGo
  /-- The caller takes a row of a response that nobody has. -/
  | take (label : Nat) (hfree : s.holder = .nobody) :
    ChannelStep s (.perform label .take) s.channel.take.2
  /-- The response is dropped. -/
  | drop (action : Action) : ChannelStep s action s.channel.drop
  /-- The handler hears a signal. -/
  | hear (signal : Signal) : ChannelStep s (.turn .handler) (s.channel.hear signal).1
  /-- The handler tries to store a row. -/
  | store (row : Row) : ChannelStep s (.turn .handler) (s.channel.store row).1
  /-- The call has its turn. -/
  | turn (call : PullCall) : ChannelStep s (.turn .caller) (call.turn s.now s.channel).2
  /-- The call has its turn, ends and drops the response. -/
  | close (call : PullCall) : ChannelStep s (.turn .caller) (call.turn s.now s.channel).2.drop

/-- What every action does to the channel. -/
theorem channelStep_act (s : StatementSession) (action : Action) :
    ChannelStep s action (s.act action).channel := by
  rw [(s.act_fields action).1]
  cases action with
  | feed payload => exact .same _
  | abandon reason =>
    dsimp only [channelAfter]
    split
    · exact .finish reason
    · exact .same _
  | cutOff =>
    dsimp only [channelAfter]
    split
    · exact .same _
    · exact .cutOff
  | dropHandler =>
    dsimp only [channelAfter]
    split
    · exact .letGo
    · exact .same _
  | perform label step =>
    dsimp only [channelAfter]
    split
    · rename_i hholder
      exact .take label hholder
    · exact .drop _
    · exact .same _
  | cancel label =>
    dsimp only [channelAfter]
    split
    · exact .drop _
    · exact .same _
  | withdraw => exact .same _
  | pass gap => exact .same _
  | turn side =>
    cases side with
    | handler =>
      dsimp only [channelAfter]
      split
      · exact .same _
      · rw [Channel.receive_eq]
        exact .hear _
      · exact .store _
    | caller =>
      dsimp only [channelAfter]
      cases s.call with
      | none => exact .same _
      | some running =>
        have hturn : ChannelStep s (.turn .caller) (running.2.turn s.now s.channel).2 := .turn _
        have hclose : ChannelStep s (.turn .caller) (running.2.turn s.now s.channel).2.drop :=
          .close _
        dsimp only
        cases hrunning : running.2.turn s.now s.channel with
        | mk progress c =>
          rw [hrunning] at hturn hclose
          cases progress with
          | again next => exact hturn
          | asleep => exact hturn
          | finished result =>
            dsimp only
            split
            · exact hclose
            · exact hturn

/-- While the response is in use, only the caller's own turn may take what a wait looks for. -/
theorem ChannelStep.keeps {action : Action} {c : Channel} (h : ChannelStep s action c)
    (hbusy : s.holder ≠ .nobody) (hother : action ≠ .turn .caller) : s.channel.Keeps c := by
  cases h with
  | same => exact .of_answer rfl fun h => h
  | finish reason => exact s.channel.keeps_finish _
  | cutOff => exact .of_answer s.channel.cutOff_answer (by simp)
  | letGo => exact s.channel.keeps_letGo
  | take label hfree => exact absurd hfree hbusy
  | drop => exact .of_answer rfl fun h => h
  | hear signal => exact s.channel.keeps_hear signal
  | store row => exact s.channel.keeps_store row
  | turn call => exact absurd rfl hother
  | close call => exact absurd rfl hother

/-- No action changes the bound of the waits. -/
theorem ChannelStep.bound_eq {action : Action} {c : Channel} (h : ChannelStep s action c) :
    c.bound = s.channel.bound := by
  cases h with
  | same => rfl
  | finish reason => exact s.channel.finish_bound _
  | cutOff => exact s.channel.cutOff_bound
  | letGo => exact s.channel.letGo_bound
  | take label hfree => exact s.channel.take_bound
  | drop => rfl
  | hear signal => exact s.channel.hear_bound signal
  | store row => exact s.channel.store_bound row
  | turn call => exact call.turn_bound s.now s.channel
  | close call => exact call.turn_bound s.now s.channel

/-! ### The caller's desk -/

/-- What the caller has to do with: the time, who has the response, the call and the answers. -/
structure Desk where
  /-- The time. -/
  now : Nat
  /-- Who has the response. -/
  holder : Holder
  /-- The call that is under way, and whom it reports to. -/
  call : Option (Nat × PullCall)
  /-- The answers that were given. -/
  finished : List (Nat × PullResult)

/-- The desk of a session. -/
def desk (s : StatementSession) : Desk := ⟨s.now, s.holder, s.call, s.finished⟩

/-- Who is woken is not the caller's business. -/
@[simp] theorem desk_wake (s : StatementSession) (side : StatementSide) :
    (s.wake side).desk = s.desk := by
  obtain ⟨ready, hwake⟩ := s.wake_eq side
  rw [hwake]
  rfl

/-- The channel is not on the caller's desk. -/
@[simp] theorem desk_setChannel (s : StatementSession) (c : Channel) :
    (s.setChannel c).desk = s.desk := by
  obtain ⟨ready, hset⟩ := s.setChannel_eq c
  rw [hset]
  rfl

/-- What an action may do to the desk. -/
inductive DeskStep (s : StatementSession) : Action → Desk → Prop
  /-- The call stays as it is, and time may pass. -/
  | aside (action : Action) (gap : Nat) (haside : action ≠ .turn .caller ∨ s.call = none)
    (hgap : gap = 0 ∨ action = .pass gap) :
    DeskStep s action ⟨s.now + gap, s.holder, s.call, s.finished⟩
  /-- The response is dropped by one who has it. -/
  | drop (action : Action) (hfree : s.holder = .nobody) :
    DeskStep s action ⟨s.now, .gone, s.call, s.finished⟩
  /-- The call is given up. -/
  | giveUp (action : Action) (holder : Holder) (hother : action ≠ .turn .caller) :
    DeskStep s action ⟨s.now, holder, none, s.finished⟩
  /-- A call starts on the response, which nobody has. -/
  | start (label : Nat) (pull : Pull) (asked : Option Duration) (holder : Holder)
    (hfree : s.holder = .nobody) (hholder : holder ≠ .nobody) :
    DeskStep s (.perform label (.pull pull asked))
      ⟨s.now, holder, some (label, .start s.now pull (asked.getD s.channel.bound)), s.finished⟩
  /-- The call has its turn and sleeps on. -/
  | sleep (label : Nat) (call : PullCall) (hcall : s.call = some (label, call))
    (hturn : (call.turn s.now s.channel).1 = .asleep) : DeskStep s (.turn .caller) s.desk
  /-- The call has its turn and goes on with a new wait. -/
  | again (label : Nat) (call next : PullCall) (hcall : s.call = some (label, call))
    (hturn : (call.turn s.now s.channel).1 = .again next) :
    DeskStep s (.turn .caller) ⟨s.now, s.holder, some (label, next), s.finished⟩
  /-- The call has its turn and ends. -/
  | finish (label : Nat) (call : PullCall) (result : PullResult) (holder : Holder)
    (hcall : s.call = some (label, call))
    (hturn : (call.turn s.now s.channel).1 = .finished result) :
    DeskStep s (.turn .caller) ⟨s.now, holder, none, s.finished ++ [(label, result)]⟩

/-- Who else can go on does not matter to the caller. -/
theorem DeskStep.of_ready {ready : List StatementSide} {action : Action} {d : Desk}
    (h : DeskStep { s with ready := ready } action d) : DeskStep s action d := by
  cases h with
  | aside _ gap haside hgap => exact .aside action gap haside hgap
  | drop _ hfree => exact .drop action hfree
  | giveUp _ holder hother => exact .giveUp action holder hother
  | start label pull asked holder hfree hholder =>
    exact .start label pull asked holder hfree hholder
  | sleep label call hcall hturn => exact .sleep label call hcall hturn
  | again label call next hcall hturn => exact .again label call next hcall hturn
  | finish label call result holder hcall hturn =>
    exact .finish label call result holder hcall hturn

/-- A step of the handler is not the caller's business. -/
theorem desk_handlerTurn (s : StatementSession) : s.handlerTurn.1.desk = s.desk := by
  unfold handlerTurn
  cases s.intake with
  | idle => cases s.queue <;> rfl
  | decoding payload =>
    dsimp only
    cases s.channel.receive payload with
    | mk c row => cases row <;> exact s.desk_setChannel c
  | storing row =>
    dsimp only
    cases s.channel.store row with
    | mk c stored => cases stored <;> exact s.desk_setChannel c

/-- The call sleeps on, goes on or ends in its turn. -/
theorem deskStep_callerTurn (s : StatementSession) :
    DeskStep s (.turn .caller) s.callerTurn.1.desk := by
  unfold callerTurn
  cases hcall : s.call with
  | none => exact .aside _ 0 (.inr hcall) (.inl rfl)
  | some running =>
    obtain ⟨label, call⟩ := running
    dsimp only
    cases hturn : call.turn s.now s.channel with
    | mk progress c =>
      have hprogress : (call.turn s.now s.channel).1 = progress := by rw [hturn]
      obtain ⟨ready, hset⟩ := s.setChannel_eq c
      dsimp only
      rw [hset]
      cases progress with
      | again next => exact .again label call next hcall hprogress
      | asleep => exact .sleep label call hcall hprogress
      | finished result =>
        unfold StatementSession.finish
        dsimp only
        split
        · rw [desk_setChannel]
          exact .finish label call result s.holder hcall hprogress
        · exact .finish label call result .nobody hcall hprogress

/-! ### Actions at the desk -/

/-- An action that leaves the desk as it is, and is not the turn of the call. -/
theorem DeskStep.of_same {action : Action} {s' : StatementSession} (hother : action ≠ .turn .caller)
    (hsame : s'.desk = s.desk) : DeskStep s action s'.desk := by
  rw [hsame]
  exact .aside action 0 (.inl hother) (.inl rfl)

/-- A payload that arrives is not the caller's business. -/
theorem desk_feed (s : StatementSession) (payload : List UInt8) :
    (s.feed payload).desk = s.desk := by
  unfold feed
  split
  · dsimp only
    split
    · exact desk_wake _ _
    · rfl
  · rfl

/-- A failure from outside reaches the caller only by its channel. -/
theorem desk_abandon (s : StatementSession) (reason : ClientError) :
    (s.abandon reason).desk = s.desk := by
  unfold abandon
  split
  · exact desk_setChannel _ _
  · rfl

/-- A decoding that is cut off reaches the caller only by its channel. -/
theorem desk_cutOff (s : StatementSession) : s.cutOff.desk = s.desk := by
  unfold cutOff
  split
  · rfl
  · rw [desk_wake]
    exact desk_setChannel _ _

/-- A handler that is let go of reaches the caller only by its channel. -/
theorem desk_dropHandler (s : StatementSession) : s.dropHandler.desk = s.desk := by
  unfold dropHandler
  split
  · exact desk_setChannel _ _
  · rfl

/-- Who has the response drops it, or starts a call on it. -/
theorem deskStep_perform (s : StatementSession) (label : Nat) (step : ResponseStep) :
    DeskStep s (.perform label step) (s.perform label step).2.desk := by
  unfold perform
  cases hholder : s.holder with
  | call | gone => exact .of_same (by simp) rfl
  | nobody =>
    cases step with
    | pull pull bound =>
      dsimp only
      unfold StatementSession.start
      rw [desk_wake]
      refine .start label pull bound _ hholder ?_
      split <;> simp
    | take => exact .of_same (by simp) (desk_setChannel _ _)
    | readId => exact .of_same (by simp) rfl
    | describe => exact .of_same (by simp) rfl
    | drop =>
      obtain ⟨ready, hset⟩ := s.setChannel_eq s.channel.drop
      dsimp only
      unfold dropResponse
      rw [hset]
      exact .drop _ hholder

/-- A call that is cancelled is given up with the response. -/
theorem deskStep_cancel (s : StatementSession) (label : Nat) :
    DeskStep s (.cancel label) ((s.cancel? label).getD s).desk := by
  unfold cancel?
  split
  · split
    · obtain ⟨ready, hset⟩ := s.setChannel_eq s.channel.drop
      dsimp only [Option.getD]
      rw [hset]
      exact .giveUp _ s.holder (by simp)
    · exact .of_same (by simp) rfl
  · exact .of_same (by simp) rfl

/-- A call that is withdrawn gives the response back. -/
theorem deskStep_withdraw (s : StatementSession) : DeskStep s .withdraw s.withdraw.desk := by
  unfold withdraw
  split
  · split
    · exact .of_same (by simp) rfl
    · exact .giveUp _ .nobody (by simp)
  · exact .of_same (by simp) rfl

/-- Time that passes may wake the call and does nothing else to it. -/
theorem deskStep_pass (s : StatementSession) (gap : Nat) :
    DeskStep s (.pass gap) (s.pass gap).desk := by
  unfold pass
  dsimp only
  split
  · rw [desk_wake]
    exact .aside _ gap (.inl (by simp)) (.inr rfl)
  · exact .aside _ gap (.inl (by simp)) (.inr rfl)

/-- The handler's turn is not the caller's business. -/
theorem desk_turnOf_handler (s : StatementSession) : (s.turnOf .handler).desk = s.desk := by
  have hturn := desk_handlerTurn { s with ready := s.ready.erase .handler }
  unfold turnOf
  dsimp only
  split <;> exact hturn

/-- The caller's turn is that of its call. -/
theorem deskStep_turnOf_caller (s : StatementSession) :
    DeskStep s (.turn .caller) (s.turnOf .caller).desk := by
  have hturn := deskStep_callerTurn { s with ready := s.ready.erase .caller }
  have hdesk {goesOn : Bool} {s' : StatementSession} :
      (if goesOn then { s' with ready := .caller :: s'.ready.erase .caller } else s').desk =
        s'.desk := by
    split <;> rfl
  unfold turnOf
  dsimp only
  rw [hdesk]
  exact hturn.of_ready

/-- What every action does to the desk. -/
theorem deskStep_act (s : StatementSession) (action : Action) :
    DeskStep s action (s.act action).desk := by
  cases action with
  | feed payload => exact .of_same (by simp) (s.desk_feed payload)
  | abandon reason => exact .of_same (by simp) (s.desk_abandon reason)
  | cutOff => exact .of_same (by simp) s.desk_cutOff
  | dropHandler => exact .of_same (by simp) s.desk_dropHandler
  | perform label step => exact s.deskStep_perform label step
  | cancel label => exact s.deskStep_cancel label
  | withdraw => exact s.deskStep_withdraw
  | pass gap => exact s.deskStep_pass gap
  | turn side =>
    cases side with
    | handler => exact .of_same (by simp) s.desk_turnOf_handler
    | caller => exact s.deskStep_turnOf_caller

end StatementSession

end BeeProtocol
