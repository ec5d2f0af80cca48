import BeeProtocol.Proofs.Statement.Drains

/-!
# Drains agree

Over every course of what others do, of time, and of looks and takes, the three ways to drain a
response get the same rows and come to the same end at the same time. An end with an error is the
failure of the statement, or the end of the bound that every wait for a row has of its own.
-/

namespace BeeProtocol

namespace StatementSession

variable {s : StatementSession} {label : Nat}

/-! ### Whole drains -/

section Runs

open Drain

variable {way : DrainWay} {rows : List Row} {since : Nat}

/-- One more event is dealt with after the others. -/
theorem drain_append (s : StatementSession) (way : DrainWay) (label : Nat)
    (events : List DrainEvent) (event : DrainEvent) :
    s.drain way label (events ++ [event]) = (s.drain way label events).step way label event := by
  simp [drain]

/-- In the beginning every way of draining has the session that was there. -/
theorem alike_drain (hfree : s.holder = .nobody) (way : DrainWay) (label : Nat) :
    (s.drain way label []).session.Alike s := by
  obtain ⟨ready, hstart⟩ := s.start_eq label (way.pull []) none
  simp only [drain, List.foldl, perform, hfree, hstart]
  exact ⟨rfl, rfl, rfl⟩

/-- A drain begins with a wait for the first row. -/
theorem pending_drain (hfree : s.holder = .nobody) (way : DrainWay) (label : Nat) :
    (s.drain way label []).Pending s way label [] s.now := by
  have hperform : (s.perform label (.pull (way.pull []) none)).2 =
      s.start label (way.pull []) none := by
    unfold perform
    rw [hfree]
  obtain ⟨ready, hstart⟩ := s.start_eq label (way.pull []) none
  unfold drain
  dsimp only [List.foldl]
  rw [hperform, hstart]
  refine ⟨rfl, ?_, ?_, rfl, by simp⟩
  · dsimp only
    split <;> simp
  · cases way <;> simp [DrainWay.told]

/-- Two ways to drain a response are in step, whatever happens. -/
theorem inStep_drain (hfree : s.holder = .nobody) (way way' : DrainWay) (label : Nat)
    (events : List DrainEvent) :
    InStep s label way way' (s.drain way label events) (s.drain way' label events) := by
  induction events using List.reverseRecOn with
  | nil =>
    have h := alike_drain hfree way label
    have h' := alike_drain hfree way' label
    exact .pending [] s.now (pending_drain hfree way label) (pending_drain hfree way' label) rfl
      ⟨h.now.trans h'.now.symm, h.channel.trans h'.channel.symm, h.side.trans h'.side.symm⟩
  | append_singleton events event ih =>
    rw [drain_append, drain_append]
    exact ih.step event

/-- What the caller has been told, read off the calls that have ended. -/
theorem drained_of_finished {stage : DrainStage} {events : List DrainEvent}
    (h : (s.drain way label events).session.finished =
      s.finished ++ (way.told rows stage).map (label, ·)) :
    s.drained way label events = way.told rows stage := by
  simp [drained, h, Function.comp_def]

/-- A drain has waited for its next row since the beginning, or since it took the row before. -/
def WaitsSince (s : StatementSession) (way : DrainWay) (label : Nat) (events : List DrainEvent)
    (rows : List Row) (since : Nat) : Prop :=
  ∃ before after, events = before ++ after ∧ since = (s.drain way label before).session.now ∧
    s.drained way label before = way.told rows .pending ∧
    (before = [] ∨ ∃ earlier taken row, before = earlier ++ [.take] ∧ rows = taken ++ [row] ∧
      s.drained way label earlier = way.told taken .pending)

/-- What a drain was broken by: the statement had failed, or it looked for a row when none was there
and its own time was over. -/
def BrokenBy (s : StatementSession) (way : DrainWay) (label : Nat) (events : List DrainEvent)
    (rows : List Row) (reason : ClientError) : Prop :=
  ∃ before event after since, events = before ++ event :: after ∧
    WaitsSince s way label before rows since ∧
    ((s.drain way label before).session.channel.failure = some reason ∨
      event = .look ∧ (s.drain way label before).session.channel.rowReady? = none ∧
        (callFor s way rows since).isDue (s.drain way label before).session.now = true ∧
        reason = (callFor s way rows since).timeout (s.drain way label before).session.channel
          "row")

variable {events : List DrainEvent}

/-- Another event that is not the taking of a row leaves the wait as it is. -/
theorem WaitsSince.append (h : WaitsSince s way label events rows since) (event : DrainEvent) :
    WaitsSince s way label (events ++ [event]) rows since := by
  obtain ⟨before, after, rfl, hrest⟩ := h
  exact ⟨before, after ++ [event], by simp, hrest⟩

/-- What has broken a drain has done so whatever comes later. -/
theorem BrokenBy.append {reason : ClientError} (h : BrokenBy s way label events rows reason)
    (event : DrainEvent) : BrokenBy s way label (events ++ [event]) rows reason := by
  obtain ⟨before, first, after, since, rfl, hrest⟩ := h
  exact ⟨before, first, after ++ [event], since, by simp, hrest⟩

/-- A drain waits for a row, or it has come to its end for a reason. -/
theorem drain_stands (hfree : s.holder = .nobody) (way : DrainWay) (label : Nat)
    (events : List DrainEvent) :
    (∃ rows since, (s.drain way label events).Pending s way label rows since ∧
      WaitsSince s way label events rows since) ∨
    ∃ rows stage, (s.drain way label events).Over s way label rows stage ∧
      ∀ reason, stage = .broken reason → BrokenBy s way label events rows reason := by
  induction events using List.reverseRecOn with
  | nil =>
    have hstart := pending_drain hfree way label
    exact .inl ⟨[], s.now, hstart, [], [], rfl, (alike_drain hfree way label).now.symm,
      drained_of_finished hstart.finished, .inl rfl⟩
  | append_singleton events event ih =>
    rw [drain_append]
    rcases ih with ⟨rows, since, h, hsince⟩ | ⟨rows, stage, h, hcause⟩
    · cases event with
      | other action hothers => exact .inl ⟨rows, since, h.other hothers, hsince.append _⟩
      | look =>
        change (∃ rows since, (s.drain way label events).look.Pending s way label rows since ∧ _) ∨
          ∃ rows stage, (s.drain way label events).look.Over s way label rows stage ∧ _
        cases hseen : (s.drain way label events).hasSeen with
        | true =>
          rw [h.look_seen hseen]
          exact .inl ⟨rows, since, h, hsince.append _⟩
        | false =>
          rcases hknown : (s.drain way label events).known s since with _ | reason | _ | _
          · rw [h.look_eq hseen, hknown]
            exact .inl ⟨rows, since, h, hsince.append _⟩
          · refine .inr ⟨rows, .broken reason, h.look_broken hseen hknown, fun reason' heq => ?_⟩
            obtain rfl := DrainStage.broken.inj heq
            refine ⟨events, .look, [], since, rfl, hsince, ?_⟩
            rcases PullCall.of_rowKnown?_error hknown with hfailure | ⟨hnone, hdue, hreason⟩
            · exact .inl hfailure
            · exact .inr ⟨rfl, hnone, hdue, hreason⟩
          · exact .inr ⟨rows, .complete, h.look_complete hseen hknown, fun _ heq => by cases heq⟩
          · obtain ⟨hlook, hpending⟩ := h.look_sees hseen hknown
            rw [hlook]
            exact .inl ⟨rows, since, hpending, hsince.append _⟩
      | take =>
        cases hseen : (s.drain way label events).hasSeen with
        | false =>
          rw [h.step_take_unseen hseen]
          exact .inl ⟨rows, since, h, hsince.append _⟩
        | true =>
          rcases h.take_cases hseen with ⟨reason, hfailure, htake⟩ | ⟨row, c, htake⟩
          · refine .inr ⟨rows, .broken reason, h.take_broken hseen htake, fun reason' heq => ?_⟩
            obtain rfl := DrainStage.broken.inj heq
            exact ⟨events, .take, [], since, rfl, hsince, .inl hfailure⟩
          · obtain ⟨hpending, -, halike⟩ := h.take_row hseen htake
            refine .inl ⟨rows ++ [row], _, hpending, events ++ [.take], [], by simp, ?_, ?_, .inr
              ⟨events, rows, row, rfl, rfl, drained_of_finished h.finished⟩⟩
            · rw [drain_append]
              exact halike.now.symm
            · rw [← drain_append] at hpending
              exact drained_of_finished hpending.finished
    · exact .inr ⟨rows, stage, h.step event, fun reason heq => (hcause reason heq).append event⟩

end Runs

end StatementSession

/-! ### Failures that say that there is no row -/

namespace Channel

variable {c : Channel}

/-- A statement that is ended fails as before or as it is told. -/
theorem failure_finish {failure : Option ClientError} {reason : ClientError}
    (h : (c.finish failure).failure = some reason) :
    c.failure = some reason ∨ failure = some reason := by
  unfold finish at h
  split at h
  · exact .inl h
  · cases hfailure : c.failure with
    | none => exact .inr (by simpa [hfailure] using h)
    | some first => exact .inl (by simpa [hfailure] using h)

/-- The failure of a statement is part of what it answers. -/
theorem failure_of_answer {c' : Channel} (h : c'.answer = c.answer) : c'.failure = c.failure :=
  congrArg (·.2.2) h

/-- No payload fails a statement for want of a row. -/
theorem failure_receive {payload : List UInt8}
    (h : (c.receive payload).1.failure = some .emptyResult) : c.failure = some .emptyResult := by
  unfold receive at h
  split at h
  · rename_i response _
    cases hevent : response.event with
    | columns header =>
      simp only [hevent, apply, takeHeader] at h
      split at h <;> exact h
    | row values => simpa only [hevent, apply] using h
    | abort =>
      rw [hevent] at h
      exact (failure_finish h).resolve_right (by simp)
    | error reason =>
      rw [hevent] at h
      exact (failure_finish h).resolve_right (by simp)
  · exact h
  · exact (failure_finish h).resolve_right (by simp)

end Channel

namespace StatementSession

variable {s : StatementSession} {label : Nat}

/-- The caller's turn leaves the answer as it is. -/
theorem answer_callerTurn (s : StatementSession) :
    s.callerTurn.1.channel.answer = s.channel.answer := by
  rw [s.callerTurn_fields.1]
  unfold channelAfter
  dsimp only
  cases s.call with
  | none => rfl
  | some running =>
    have hanswer := s.channel.turn_answer running.2 s.now
    dsimp only
    split <;> rename_i heq <;> rw [heq] at hanswer
    · split
      · exact hanswer
      · exact hanswer
    · exact hanswer

/-- Apart from being abandoned with it, nothing fails a statement for want of a row. -/
theorem failure_act {action : Action} (h : (s.act action).channel.failure = some .emptyResult) :
    s.channel.failure = some .emptyResult ∨ action = .abandon .emptyResult := by
  have hsame {c : Channel} (hanswer : c.answer = s.channel.answer)
      (hc : c.failure = some .emptyResult) : s.channel.failure = some .emptyResult := by
    rwa [← Channel.failure_of_answer hanswer]
  rw [(s.act_fields action).1] at h
  cases action with
  | abandon reason =>
    dsimp only [channelAfter] at h
    split at h
    · rcases Channel.failure_finish h with hbefore | hreason
      · exact .inl hbefore
      · exact .inr (by rw [Option.some.inj hreason])
    · exact .inl h
  | cutOff =>
    dsimp only [channelAfter] at h
    split at h
    · exact .inl h
    · exact .inl (hsame s.channel.cutOff_answer h)
  | dropHandler =>
    dsimp only [channelAfter] at h
    split at h
    · have hcut := (Channel.failure_finish h).resolve_right (by simp)
      exact .inl (hsame s.channel.cutOff_answer hcut)
    · exact .inl h
  | perform label step =>
    dsimp only [channelAfter] at h
    split at h
    · exact .inl (hsame s.channel.take_answer h)
    · exact .inl h
    · exact .inl h
  | cancel label =>
    dsimp only [channelAfter] at h
    split at h <;> exact .inl h
  | turn who =>
    cases who with
    | handler =>
      dsimp only [channelAfter] at h
      split at h
      · exact .inl h
      · exact .inl (Channel.failure_receive h)
      · exact .inl (hsame (s.channel.store_answer _) h)
    | caller =>
      rw [← s.callerTurn_fields.1] at h
      exact .inl (hsame s.answer_callerTurn h)
  | _ => exact .inl h

/-- The end of a call leaves what the statement answers. -/
theorem conclude_answer (s : StatementSession) (label : Nat) (call : PullCall)
    (progress : PullProgress) (c : Channel) :
    (s.conclude label call (progress, c)).channel.answer = c.answer := by
  obtain ⟨ready, hset⟩ := s.setChannel_eq c
  unfold conclude
  dsimp only
  rw [hset]
  cases progress with
  | again next => rfl
  | asleep => rfl
  | finished result =>
    unfold finish
    dsimp only
    split
    · rw [setChannel_channel]
      rfl
    · rfl

/-- Asking for another row leaves the channel. -/
theorem askAgain_channel (s : StatementSession) (way : DrainWay) (label : Nat) :
    (s.askAgain way label).channel = s.channel := by
  unfold askAgain
  split
  · exact (perform_fields s label (.pull .nextRow none)).1.trans (by simp [channelAfter])
  · rfl

namespace Drain

/-- Looking for a row leaves what the statement answers. -/
theorem answer_look (d : Drain) : d.look.session.channel.answer = d.session.channel.answer := by
  unfold look
  split
  · split
    · rfl
    · split
      · rfl
      · exact answer_callerTurn _
  · rfl

/-- Taking a row leaves what the statement answers. -/
theorem answer_take (d : Drain) : d.take.session.channel.answer = d.session.channel.answer := by
  unfold take
  split
  · split
    · have htake (call : PullCall) : (call.takeRow d.session.now d.session.channel).2.answer =
          d.session.channel.answer := by
        have hanswer := d.session.channel.take_answer
        unfold PullCall.takeRow
        split <;> rename_i heq <;> rwa [heq] at hanswer
      exact (conclude_answer _ _ _ _ _).trans (htake _)
    · rfl
  · rfl

end Drain

/-- A statement that fails for want of a row had failed so before the drain, or is abandoned with
this failure during it. -/
theorem failure_drain {way : DrainWay} {events : List DrainEvent} (hfree : s.holder = .nobody)
    (h : (s.drain way label events).session.channel.failure = some .emptyResult) :
    s.channel.failure = some .emptyResult ∨
      .other (.abandon .emptyResult) rfl ∈ events := by
  induction events using List.reverseRecOn with
  | nil =>
    rw [(alike_drain hfree way label).channel] at h
    exact .inl h
  | append_singleton events event ih =>
    rw [drain_append] at h
    have hbefore (hsame : (s.drain way label events).session.channel.failure = some .emptyResult) :
        s.channel.failure = some .emptyResult ∨
          .other (.abandon .emptyResult) rfl ∈ events ++ [event] :=
      (ih hsame).imp_right (List.mem_append_left _)
    cases event with
    | other action hothers =>
      rcases failure_act h with hsame | rfl
      · exact hbefore hsame
      · exact .inr (by simp)
    | look =>
      rw [← Channel.failure_of_answer (s.drain way label events).answer_look] at hbefore
      exact hbefore h
    | take =>
      have hchannel := askAgain_channel (s.drain way label events).take.session way label
      rw [← Channel.failure_of_answer (s.drain way label events).answer_take, ← hchannel] at hbefore
      exact hbefore h

end StatementSession

/-! ### What the ways tell -/

/-- The failure that a result reports. -/
def PullResult.reports : PullResult → Option ClientError
  | failed reason => some reason
  | streamed _ failure => failure
  | _ => none

namespace DrainWay

variable {rows rows' : List Row} {stage stage' : DrainStage}

/-- Who collects is told all rows when they are complete. -/
theorem told_collect_complete :
    collect.told rows stage = [.collected rows'] ↔ stage = .complete ∧ rows = rows' := by
  cases stage <;> simp [told]

/-- Who collects is told a failure when the rows break off. -/
theorem told_collect_broken {reason : ClientError} :
    collect.told rows stage = [.failed reason] ↔ stage = .broken reason := by
  cases stage <;> simp [told]

/-- What a stream tells shows how far it has come, unless it is to go on. -/
theorem told_stream_inj (hends : stage' ≠ .pending) :
    stream.told rows stage = stream.told rows' stage' ↔ stage = stage' ∧ rows = rows' := by
  cases stage <;> cases stage' <;> simp_all [told, and_comm]

/-- What ends the calls for one row after the other is not a row. -/
theorem told_nextRow_inj (hends : stage' ≠ .pending) :
    nextRow.told rows stage = nextRow.told rows' stage' ↔ stage = stage' ∧ rows = rows' := by
  have hrows : rows.map (fun row => PullResult.nextRow (some row)) =
      rows'.map (fun row => PullResult.nextRow (some row)) ↔ rows = rows' :=
    List.map_inj_right fun row row' heq => Option.some.inj (PullResult.nextRow.inj heq)
  have hlong (last : PullResult) (hlast : ∀ row, last ≠ .nextRow (some row)) :
      rows.map (fun row => PullResult.nextRow (some row)) ≠
        rows'.map (fun row => PullResult.nextRow (some row)) ++ [last] := by
    intro heq
    have hmem : last ∈ rows.map fun row => PullResult.nextRow (some row) := by simp [heq]
    obtain ⟨row, -, hrow⟩ := List.mem_map.mp hmem
    exact hlast row hrow.symm
  cases stage with
  | pending =>
    cases stage' with
    | pending => exact absurd rfl hends
    | complete => simpa [told] using hlong (.nextRow none) (by simp)
    | broken reason => simpa [told] using hlong (.failed reason) (by simp)
  | complete =>
    cases stage' with
    | pending => exact absurd rfl hends
    | complete | broken reason => simp [told, hrows]
  | broken reason =>
    cases stage' with
    | pending => exact absurd rfl hends
    | complete | broken reason' => simp [told, hrows, and_comm]

/-- Only the end of a drain that was broken is a failure. -/
theorem of_reports {way : DrainWay} {result : PullResult} (h : result ∈ way.told rows stage)
    {reason : ClientError} (hreports : result.reports = some reason) :
    stage = .broken reason := by
  cases way with
  | collect => cases stage <;> simp_all [told, PullResult.reports]
  | stream => cases stage <;> simp_all [told, PullResult.reports]
  | nextRow =>
    have hrow (row : Row) : (PullResult.nextRow (some row)).reports = none := rfl
    cases stage <;> grind [told, PullResult.reports]

end DrainWay

namespace StatementSession

variable {s : StatementSession} {label : Nat} {events : List DrainEvent}

/-- The three ways to drain a response, over one course of what others do, of time, and of the looks
and takes of the caller. -/
structure DrainsAgree (s : StatementSession) (label : Nat) (events : List DrainEvent) : Prop where
  /-- All rows are collected exactly if they are streamed without an error. -/
  collects : ∀ rows, s.drained .collect label events = [.collected rows] ↔
    s.drained .stream label events = [.streamed rows none]
  /-- Exactly then one call after the other brings them, and then says that there are no more. -/
  streams : ∀ rows, s.drained .stream label events = [.streamed rows none] ↔
    s.drained .nextRow label events =
      rows.map (fun row => .nextRow (some row)) ++ [.nextRow none]
  /-- Collecting fails exactly if some rows are streamed and the same error after them. -/
  collectFails : ∀ reason, s.drained .collect label events = [.failed reason] ↔
    ∃ rows, s.drained .stream label events = [.streamed rows (some reason)]
  /-- Exactly then one call after the other brings these rows and then fails with the error. -/
  streamFails : ∀ rows reason, s.drained .stream label events = [.streamed rows (some reason)] ↔
    s.drained .nextRow label events =
      rows.map (fun row => .nextRow (some row)) ++ [.failed reason]
  /-- At every moment the three have got the same rows and have come to the same end, if any. -/
  together : ∃ rows stage, ∀ way, s.drained way label events = way.told rows stage
  /-- A stream ends once, with at most one error after its rows. -/
  once : ∀ result ∈ s.drained .stream label events,
    s.drained .stream label events = [result] ∧ ∃ rows failure, result = .streamed rows failure
  /-- After an end nothing more is told. -/
  final : ∀ way more, (s.drain way label events).session.call = none →
    s.drained way label (events ++ more) = s.drained way label events
  /-- Each call for the next row has the whole bound of the response from its own beginning. -/
  ownTime : ∀ running call, (s.drain .nextRow label events).session.call = some (running, call) →
    ∃ rows since, call = .start since .nextRow s.channel.bound ∧
      s.drained .nextRow label events = DrainWay.nextRow.told rows .pending ∧
      WaitsSince s .nextRow label events rows since
  /-- An error is the failure of the statement, or the end of the bound of one wait. -/
  broken : ∀ way, ∀ result ∈ s.drained way label events, ∀ reason, result.reports = some reason →
    ∃ rows, s.drained way label events = way.told rows (.broken reason) ∧
      BrokenBy s way label events rows reason
  /-- No way reports that there is no row, unless the statement was failed with just that. -/
  emptyResult : ∀ way, ∀ result ∈ s.drained way label events,
    result.reports = some .emptyResult →
      s.channel.failure = some .emptyResult ∨ .other (.abandon .emptyResult) rfl ∈ events

/-- The three ways have got the same rows and stand alike. -/
theorem exists_together (hfree : s.holder = .nobody) (label : Nat) (events : List DrainEvent) :
    ∃ rows stage, ∀ way, s.drained way label events = way.told rows stage := by
  rcases drain_stands hfree .stream label events with ⟨rows, since, h, -⟩ | ⟨rows, stage, h, -⟩
  · refine ⟨rows, .pending, fun way => ?_⟩
    cases inStep_drain hfree .stream way label events with
    | pending rows' since' g g' =>
      have hcall := (Prod.mk.inj (Option.some.inj (h.call.symm.trans g.call))).2
      obtain rfl : rows = rows' := Pull.stream.inj (congrArg PullCall.pull hcall)
      exact drained_of_finished g'.finished
    | ended rows' stage g g' => cases h.call.symm.trans g.call
  · refine ⟨rows, stage, fun way => ?_⟩
    cases inStep_drain hfree .stream way label events with
    | pending rows' since g g' => cases h.call.symm.trans g.call
    | ended rows' stage' g g' =>
      have htold : DrainWay.stream.told rows stage = DrainWay.stream.told rows' stage' :=
        (drained_of_finished h.finished).symm.trans (drained_of_finished g.finished)
      obtain ⟨rfl, rfl⟩ := (DrainWay.told_stream_inj g.ends).mp htold
      exact drained_of_finished g'.finished

/-- A drain that has come to its end stays there. -/
theorem over_drain_append {way : DrainWay} {rows : List Row} {stage : DrainStage}
    (h : (s.drain way label events).Over s way label rows stage) (more : List DrainEvent) :
    (s.drain way label (events ++ more)).Over s way label rows stage := by
  induction more using List.reverseRecOn with
  | nil => rwa [List.append_nil]
  | append_singleton more event ih =>
    rw [← List.append_assoc, drain_append]
    exact ih.step event

/-- What a drain that reports a failure was broken by. -/
theorem brokenBy_of_reports (hfree : s.holder = .nobody) {way : DrainWay} {result : PullResult}
    (h : result ∈ s.drained way label events) {reason : ClientError}
    (hreports : result.reports = some reason) :
    ∃ rows, s.drained way label events = way.told rows (.broken reason) ∧
      BrokenBy s way label events rows reason := by
  rcases drain_stands hfree way label events with ⟨rows, since, g, -⟩ | ⟨rows, stage, g, hcause⟩
  · rw [drained_of_finished g.finished] at h
    cases DrainWay.of_reports h hreports
  · have htold := drained_of_finished g.finished
    rw [htold] at h
    obtain rfl := DrainWay.of_reports h hreports
    exact ⟨rows, htold, hcause reason rfl⟩

/-- Over every course of events the three ways to drain a response agree. -/
theorem drains_agree (hfree : s.holder = .nobody) (label : Nat) (events : List DrainEvent) :
    DrainsAgree s label events := by
  obtain ⟨rows, stage, htold⟩ := exists_together hfree label events
  have hstream (rows' : List Row) {stage' : DrainStage} (hends : stage' ≠ .pending) :
      s.drained .stream label events = DrainWay.stream.told rows' stage' ↔
        stage = stage' ∧ rows = rows' := by
    rw [htold, DrainWay.told_stream_inj hends]
  have hnextRow (rows' : List Row) {stage' : DrainStage} (hends : stage' ≠ .pending) :
      s.drained .nextRow label events = DrainWay.nextRow.told rows' stage' ↔
        stage = stage' ∧ rows = rows' := by
    rw [htold, DrainWay.told_nextRow_inj hends]
  have hcomplete : DrainStage.complete ≠ .pending := by simp
  have hbroken (reason : ClientError) : DrainStage.broken reason ≠ .pending := by simp
  refine ⟨fun rows' => ?_, fun rows' => ?_, fun reason => ?_, fun rows' reason => ?_,
    ⟨rows, stage, htold⟩, fun result hresult => ?_, fun way more hcall => ?_,
    fun running call hcall => ?_,
    fun way result hresult reason => brokenBy_of_reports hfree hresult,
    fun way result hresult hreports => ?_⟩
  · rw [htold, DrainWay.told_collect_complete]
    exact (hstream rows' hcomplete).symm
  · exact (hstream rows' hcomplete).trans (hnextRow rows' hcomplete).symm
  · rw [htold, DrainWay.told_collect_broken]
    constructor
    · exact fun heq => ⟨rows, (hstream rows (hbroken reason)).mpr ⟨heq, rfl⟩⟩
    · rintro ⟨rows', heq⟩
      exact ((hstream rows' (hbroken reason)).mp heq).1
  · exact (hstream rows' (hbroken reason)).trans (hnextRow rows' (hbroken reason)).symm
  · rw [htold] at hresult ⊢
    cases stage <;> simp_all [DrainWay.told]
  · rcases drain_stands hfree way label events with ⟨rows, since, h, -⟩ | ⟨rows, stage, h, -⟩
    · cases h.call.symm.trans hcall
    · rw [drained_of_finished h.finished,
        drained_of_finished (over_drain_append h more).finished]
  · rcases drain_stands hfree .nextRow label events with
      ⟨rows, since, h, hsince⟩ | ⟨rows, stage, h, -⟩
    · obtain ⟨rfl, rfl⟩ := Prod.mk.inj (Option.some.inj (h.call.symm.trans hcall))
      exact ⟨rows, since, rfl, drained_of_finished h.finished, hsince⟩
    · cases h.call.symm.trans hcall
  · obtain ⟨rows', -, before, event, after, since, rfl, -, hcause⟩ :=
      brokenBy_of_reports hfree hresult hreports
    rcases hcause with hfailure | ⟨-, -, -, htimeout⟩
    · exact (failure_drain hfree hfailure).imp_right (List.mem_append_left _)
    · cases htimeout

/-- The header and a row come while the caller waits, and the end between its look and its take. -/
def rowAndAbort : List DrainEvent :=
  [.look, .other (.feed [0, 0, 0, 2, 0, 1, 1, 97, 4]) rfl, .other (.turn .handler) rfl,
    .other (.turn .handler) rfl, .look, .other (.feed [0, 0, 0, 2, 1, 1, 4, 1]) rfl,
    .other (.turn .handler) rfl, .other (.turn .handler) rfl, .other (.turn .handler) rfl, .look,
    .other (.feed [0, 0, 0, 2, 2]) rfl, .other (.turn .handler) rfl, .other (.turn .handler) rfl,
    .take, .look]

/-- A row and an abort are collected as one row, as all ways agree. -/
theorem drains_rowAndAbort :
    (fresh 2 1 (.ofSeconds 30)).holder = .nobody ∧
      (fresh 2 1 (.ofSeconds 30)).drained .collect 0 rowAndAbort =
        [.collected [⟨[⟨"a", .boolean⟩], [.boolean true]⟩]] ∧
      DrainsAgree (fresh 2 1 (.ofSeconds 30)) 0 rowAndAbort :=
  ⟨rfl, rfl, drains_agree rfl 0 rowAndAbort⟩

/-- A statement may be abandoned with any failure, also with the one that says that there is no row,
and then each of the three ways reports just that. -/
theorem drains_reportEmptyResult :
    ¬ ∀ way,
      ∀ result ∈ (sessionOf 7 1 (.ofSeconds 30) [.abandon .emptyResult]).drained way 0 [.look],
        result.reports ≠ some .emptyResult := by
  intro h
  exact h .collect (.failed .emptyResult) (List.mem_singleton.mpr rfl) rfl

end StatementSession

end BeeProtocol
