import BeeProtocol.Proofs.Statement.Filtering
import BeeProtocol.Proofs.Statement.Waking

/-!
# The end of a statement is final

The first end of a statement decides what it has come to, and nothing that happens later changes
that. After a failure the caller gets no row and every call ends with the failure. After an abort it
gets the rows that were buffered then, in order, and is told that there are no more.
-/

namespace BeeProtocol

/-- The first end decides what the signals come to, with the first header before it. -/
theorem Signal.answerOf_of_first {before : List Signal} {signal : Signal}
    (hquiet : isOver before = false) (hends : signal.ends) (after : List Signal) :
    answerOf (before ++ signal :: after) = (.done, headerOf before, signal.failure?) := by
  have hover : isOver (before ++ [signal]) := by simp [isOver, hends]
  have hheader : headerOf (before ++ [signal]) = headerOf before := by
    rw [headerOf_append_singleton hquiet, (header?_of_ends hends).1, Option.or_none]
  have hfailure : failureOf (before ++ [signal]) = signal.failure? := by
    rw [failureOf_append_singleton hquiet, if_pos hends]
  rw [← List.singleton_append, ← List.append_assoc, answerOf_append_of_isOver hover, answerOf,
    phaseOf, if_pos hover, hheader, hfailure]

namespace Channel

variable {c : Channel}

/-- Every question is answered with the failure, whatever is buffered. -/
structure FailsWith (reason : ClientError) (c : Channel) : Prop where
  /-- To take a row without waiting fails. -/
  take : c.take.1 = .error reason
  /-- Every call fails in its turn. -/
  turn : ∀ (call : PullCall) (now : Nat), (call.turn now c).1 = call.fail reason

/-- Nothing comes after the buffered rows, the oldest of which is available. -/
structure RunsOut (c : Channel) : Prop where
  /-- To take a row without waiting takes the oldest one, or fails for want of one. -/
  take : c.take.1 = c.rows.head?.elim (.error .emptyResult) .ok
  /-- The question for a row is answered by what is buffered. -/
  hasNext : ∀ (call : PullCall) (now : Nat), call.pull = .hasNext →
    (call.turn now c).1 = .finished (.hasNext (!c.rows.isEmpty))
  /-- The next row is the oldest one that is buffered, or none. -/
  nextRow : ∀ (call : PullCall) (now : Nat), call.pull = .nextRow →
    (call.turn now c).1 = .finished (.nextRow c.rows.head?)

/-- A channel with a failure fails with it in every call. -/
theorem failsWith_of_failure {reason : ClientError} (h : c.failure = some reason) :
    c.FailsWith reason where
  take := by simp [Channel.take, h]
  turn call now := by
    have hrow : call.rowKnown? now c = some (.error reason) := by
      simp [PullCall.rowKnown?, rowReady?, h]
    have hheader : call.headerKnown? now c = some (.error reason) := by
      simp [PullCall.headerKnown?, headerReady?, h]
    unfold PullCall.turn PullCall.fail
    cases call.pull <;> simp [hrow, hheader]

/-- A channel that has ended without a failure runs out in every call. -/
theorem runsOut_of_abort (hdone : c.isDone) (hfailure : c.failure = none) : c.RunsOut where
  take := by cases hrows : c.rows <;> simp [Channel.take, hfailure, hrows]
  hasNext call now hpull := by
    cases hrows : c.rows <;>
      simp [PullCall.turn, PullCall.rowKnown?, rowReady?, hpull, hdone, hfailure, hrows]
  nextRow call now hpull := by
    cases hrows : c.rows <;>
      simp [PullCall.turn, PullCall.rowKnown?, rowReady?, hpull, hdone, hfailure, hrows,
        PullCall.exhausted, PullCall.takeRow, Channel.take, PullCall.took]

end Channel

namespace StatementSession

variable {s : StatementSession} {h : StatementHistory}

/-! ### What the signals come to -/

/-- An action adds signals to those that were heard and takes none back. -/
theorem begun_note (s : StatementSession) (h : StatementHistory) (action : Action) :
    h.begun <+: (s.note h action).begun := by
  have hhear (signal : Signal) : h.begun <+: (h.hear signal).begun := by
    rw [h.begun_hear]
    exact List.prefix_append _ _
  cases action with
  | abandon reason =>
    dsimp only [note]
    split
    · exact hhear _
    · exact List.prefix_refl _
  | cutOff =>
    exact ⟨[], (List.append_nil _).trans (h.begun_cut s.intake).symm⟩
  | dropHandler =>
    dsimp only [note]
    split
    · rw [StatementHistory.begun_hear, h.begun_cut]
      exact List.prefix_append _ _
    · exact List.prefix_refl _
  | turn who =>
    cases who with
    | handler =>
      dsimp only [note]
      split
      · exact hhear _
      · exact List.prefix_refl _
    | caller =>
      dsimp only [note]
      split <;> exact List.prefix_refl _
  | _ => exact List.prefix_refl _

/-- What is over stays so. -/
theorem isOver_note (hover : Signal.isOver h.begun) (action : Action) :
    Signal.isOver (s.note h action).begun := by
  obtain ⟨more, hmore⟩ := s.begun_note h action
  rw [← hmore, Signal.isOver_append, hover, Bool.true_or]

/-- The channel reflects all signals that the handler has begun to deal with: a row whose storing
was cut off makes no difference. -/
theorem reflects_begun_act (hs : s.channel.Reflects h.begun) (action : Action) :
    (s.act action).channel.Reflects (s.note h action).begun := by
  have hsame {c : Channel} (hanswer : c.answer = s.channel.answer) : c.Reflects h.begun :=
    hanswer.trans hs
  rw [(s.act_fields action).1]
  cases action with
  | abandon reason =>
    dsimp only [channelAfter, note]
    split
    · rw [h.begun_hear]
      exact (hs.hear (.abandoned reason)).1
    · exact hs
  | cutOff =>
    dsimp only [channelAfter, note]
    rw [h.begun_cut]
    split
    · exact hs
    · exact hsame s.channel.cutOff_answer
  | dropHandler =>
    dsimp only [channelAfter, note]
    split
    · rw [StatementHistory.begun_hear, h.begun_cut]
      exact ((hsame s.channel.cutOff_answer).hear (.abandoned .connectionClosed)).1
    · exact hs
  | perform label step =>
    dsimp only [channelAfter]
    split
    · exact hsame s.channel.take_answer
    · exact hsame s.channel.drop_answer
    · exact hs
  | cancel label =>
    dsimp only [channelAfter]
    split
    · exact hsame s.channel.drop_answer
    · exact hs
  | turn who =>
    cases who with
    | handler =>
      dsimp only [channelAfter, note]
      cases s.intake with
      | idle => exact hs
      | decoding payload =>
        dsimp only [StatementHistory.decode]
        rw [Channel.receive_eq]
        have hheard := (hs.hear (.ofPayload payload)).1
        rwa [← h.begun_hear] at hheard
      | storing row => exact hsame (s.channel.store_answer row)
    | caller =>
      dsimp only [channelAfter, note]
      cases s.call with
      | none => exact hs
      | some running =>
        have hanswer := s.channel.turn_answer running.2 s.now
        dsimp only
        split <;> rename_i heq <;> rw [heq] at hanswer
        · split
          · exact hsame hanswer
          · exact hsame hanswer
        · exact hsame hanswer
  | _ => exact hs

/-- After more actions the channel reflects all signals, those from before first. -/
theorem reflects_begun_follow (hs : s.channel.Reflects h.begun) (actions : List Action) :
    (s.follow h actions).1.channel.Reflects (s.follow h actions).2.begun ∧
      h.begun <+: (s.follow h actions).2.begun :=
  follow_invariant (P := fun s' h' => s'.channel.Reflects h'.begun ∧ h.begun <+: h'.begun)
    (fun s' h' action hs' =>
      ⟨reflects_begun_act hs'.1 action, hs'.2.trans (s'.begun_note h' action)⟩)
    ⟨hs, List.prefix_refl _⟩ actions

/-- Once the statement has ended, its phase, its header and its failure stay. -/
theorem answer_follow_of_isOver (hs : s.channel.Reflects h.begun) (hover : Signal.isOver h.begun)
    (actions : List Action) : (s.follow h actions).1.channel.answer = s.channel.answer := by
  obtain ⟨hlater, more, hmore⟩ := reflects_begun_follow hs actions
  rw [hlater, ← hmore, Signal.answerOf_append_of_isOver hover]
  exact hs.symm

/-! ### What is delivered after the end -/

/-- After a failure the caller gets no row. -/
theorem delivered_note_of_failure (hfailure : s.channel.failure ≠ none) (action : Action) :
    (s.note h action).delivered = h.delivered := by
  cases action with
  | abandon reason =>
    dsimp only [note]
    split <;> rfl
  | cutOff =>
    dsimp only [note, StatementHistory.cut]
    split <;> rfl
  | dropHandler =>
    dsimp only [note, StatementHistory.cut]
    split
    · split <;> rfl
    · rfl
  | perform label step =>
    have hnone : (s.perform label step).1.rows = [] := by
      unfold perform
      obtain ⟨reason, hreason⟩ := Option.ne_none_iff_exists'.mp hfailure
      cases s.holder <;> cases step <;>
        simp [ResponseAnswer.rows, next, Channel.take, hreason]
    dsimp only [note]
    rw [hnone, h.deliver_nil]
  | turn who =>
    cases who with
    | handler =>
      dsimp only [note]
      split <;> rfl
    | caller =>
      dsimp only [note]
      split
      · rename_i label call _
        rw [PullCall.gained_of_passes (PullCall.turn_passes s.now (.inr (.inl hfailure))),
          h.deliver_nil]
      · rfl
  | _ => rfl

/-- When no row waits to be stored and none can come any more, what the caller gets comes off the
front of the buffer. -/
theorem delivered_rows_act (hnone : ∀ row, s.intake ≠ .storing row) (action : Action) :
    (s.note h action).delivered ++ (s.act action).channel.rows =
      h.delivered ++ s.channel.rows := by
  rw [(s.act_fields action).1]
  cases action with
  | abandon reason =>
    dsimp only [channelAfter, note]
    split
    · rw [Channel.finish_rows]
      rfl
    · rfl
  | cutOff =>
    dsimp only [channelAfter, note]
    cases hhand : s.intake with
    | idle => rfl
    | decoding payload =>
      dsimp only [StatementHistory.cut]
      rw [Channel.cutOff_rows]
    | storing row => exact absurd hhand (hnone row)
  | dropHandler =>
    dsimp only [channelAfter, note, Channel.letGo]
    have hcut : (h.cut s.intake).delivered = h.delivered := by
      unfold StatementHistory.cut
      split <;> rfl
    split
    · rw [Channel.finish_rows, Channel.cutOff_rows, StatementHistory.hear, hcut]
    · rfl
  | perform label step =>
    dsimp only [channelAfter, note]
    unfold perform
    cases s.holder with
    | nobody =>
      cases step with
      | take =>
        dsimp only [next, StatementHistory.deliver]
        have hrow (taken : Except ClientError Row) :
            (ResponseAnswer.row taken).rows = taken.toOption.toList := by
          cases taken <;> rfl
        rw [List.append_assoc, hrow, s.channel.take_rows]
      | _ => exact congrArg (· ++ _) (List.append_nil _)
    | _ => exact congrArg (· ++ _) (List.append_nil _)
  | cancel label =>
    dsimp only [channelAfter]
    split <;> rfl
  | turn who =>
    cases who with
    | handler =>
      dsimp only [channelAfter, note]
      cases hhand : s.intake with
      | idle => rfl
      | decoding payload =>
        dsimp only [StatementHistory.decode]
        rw [Channel.receive_eq, Channel.hear_rows]
        rfl
      | storing row => exact absurd hhand (hnone row)
    | caller =>
      dsimp only [channelAfter, note]
      cases s.call with
      | none => rfl
      | some running =>
        have hrows := running.2.turn_rows s.now s.channel
        dsimp only [StatementHistory.deliver]
        rw [List.append_assoc, ← hrows]
        split <;> rename_i heq <;> rw [heq]
        split <;> rfl
  | _ => rfl

/-- Once the statement has ended, no row comes into the handler's hands. -/
theorem not_storing_act (hdone : s.channel.isDone) (hnone : ∀ row, s.intake ≠ .storing row)
    (action : Action) (row : Row) : (s.act action).intake ≠ .storing row := by
  have hintake : (s.act action).intake = (s.sideAfter action).1 :=
    congrArg (·.1) (s.act_fields action).2
  rw [hintake]
  cases action with
  | feed payload =>
    dsimp only [sideAfter]
    split <;> exact hnone row
  | cutOff => simp [sideAfter]
  | dropHandler =>
    dsimp only [sideAfter]
    split
    · simp
    · exact hnone row
  | turn who =>
    cases who with
    | handler =>
      dsimp only [sideAfter]
      cases hhand : s.intake with
      | idle => cases s.queue <;> simp [side, hhand]
      | decoding payload =>
        have hunfit : (s.channel.receive payload).2 = none := by
          rw [Channel.receive_eq]
          cases Signal.ofPayload payload with
          | decoded event =>
            cases event <;> simp [Channel.hear, Channel.apply, Channel.fitRow?, hdone]
          | malformed reason => rfl
          | abandoned reason => rfl
        simp [hunfit]
      | storing row' => exact absurd hhand (hnone row')
    | caller => exact hnone row
  | _ => exact hnone row

/-- After an abort, what the caller gets is what was buffered, in order. -/
theorem delivered_rows_follow (hs : s.channel.Reflects h.begun)
    (hover : Signal.isOver h.begun) (hnone : ∀ row, s.intake ≠ .storing row)
    (actions : List Action) :
    (s.follow h actions).2.delivered ++ (s.follow h actions).1.channel.rows =
      h.delivered ++ s.channel.rows := by
  induction actions generalizing s h with
  | nil => rfl
  | cons action actions ih =>
    have hdone : s.channel.isDone := hs.isDone_eq.trans hover
    rw [← s.delivered_rows_act hnone action]
    exact ih (reflects_begun_act hs action) (isOver_note hover action)
      (not_storing_act hdone hnone action)

/-- After a failure the caller gets no row, however it goes on. -/
theorem delivered_follow_of_failure (hs : s.channel.Reflects h.begun)
    (hover : Signal.isOver h.begun) (hfailure : s.channel.failure ≠ none)
    (actions : List Action) : (s.follow h actions).2.delivered = h.delivered := by
  induction actions generalizing s h with
  | nil => rfl
  | cons action actions ih =>
    have hanswer : (s.act action).channel.answer = s.channel.answer :=
      answer_follow_of_isOver hs hover [action]
    have hfailure' : (s.act action).channel.failure ≠ none := by
      rwa [show (s.act action).channel.failure = s.channel.failure from
        congrArg (·.2.2) hanswer]
    rw [← s.delivered_note_of_failure (h := h) hfailure action]
    exact ih (reflects_begun_act hs action) (isOver_note hover action) hfailure'

/-! ### Runs -/

/-- What an end of a statement means for everything that comes later: `s` and `h` are what they were
at some time after the end, and `s'` and `h'` what they are now. -/
structure IsFinal (header : Option (List Column)) (failure : Option ClientError)
    (s : StatementSession) (h : StatementHistory) (s' : StatementSession)
    (h' : StatementHistory) : Prop where
  /-- The statement is over, with the same header and the same failure. -/
  answer : s'.channel.answer = (.done, header, failure)
  /-- After a failure no row is delivered, and every call ends with the failure. -/
  failed : ∀ reason, failure = some reason →
    h'.delivered = h.delivered ∧ s'.channel.FailsWith reason
  /-- After an abort the buffered rows are delivered in order, and nothing after them. -/
  aborted : failure = none →
    h'.delivered ++ s'.channel.rows = h.delivered ++ s.channel.rows ∧ s'.channel.RunsOut
  /-- No call sleeps through the end. -/
  woken : s'.call.isSome → .caller ∈ s'.ready

/-- The first end of a statement is final: it decides the outcome with the first header before it,
and whatever is done later, nothing but the rows that were buffered then is delivered. -/
theorem isFinal_runOf (id : UInt32) (capacity : Nat) (bound : Duration)
    (actions more : List Action) (before : List Signal) (signal : Signal) (after : List Signal)
    (hbegun : (runOf id capacity bound actions).2.begun = before ++ signal :: after)
    (hquiet : Signal.isOver before = false) (hends : signal.ends) :
    IsFinal (Signal.headerOf before) signal.failure?
      (runOf id capacity bound actions).1 (runOf id capacity bound actions).2
      ((runOf id capacity bound actions).1.follow (runOf id capacity bound actions).2 more).1
      ((runOf id capacity bound actions).1.follow (runOf id capacity bound actions).2 more).2 := by
  have hreflects : (runOf id capacity bound actions).1.channel.Reflects
      (runOf id capacity bound actions).2.begun :=
    (reflects_begun_follow (Channel.reflects_fresh id capacity bound) actions).1
  have htracks : (runOf id capacity bound actions).1.Tracks (runOf id capacity bound actions).2 :=
    follow_invariant (fun _ _ action hs => hs.act action) (.fresh id capacity bound) actions
  have halert : ((runOf id capacity bound actions).1.follow
      (runOf id capacity bound actions).2 more).1.Alert :=
    follow_invariant (P := fun s _ => s.Alert) (fun _ _ action hs => hs.act action)
      (alert_runOf id capacity bound actions) more
  obtain ⟨s, h, hrun⟩ : ∃ s h, runOf id capacity bound actions = (s, h) := ⟨_, _, rfl⟩
  rw [hrun] at hbegun hreflects htracks halert ⊢
  dsimp only at hbegun hreflects htracks halert ⊢
  have hover : Signal.isOver h.begun := by simp [hbegun, Signal.isOver, hends]
  have houtcome : s.channel.answer = (.done, Signal.headerOf before, signal.failure?) := by
    rw [hreflects, hbegun, Signal.answerOf_of_first hquiet hends]
  have hanswer := (answer_follow_of_isOver hreflects hover more).trans houtcome
  have hdone : (s.follow h more).1.channel.isDone := by
    rw [Channel.isDone, show (s.follow h more).1.channel.phase = .done from congrArg (·.1) hanswer]
    rfl
  have hfailure : (s.follow h more).1.channel.failure = signal.failure? :=
    congrArg (·.2.2) hanswer
  have hbefore : s.channel.failure = signal.failure? := congrArg (·.2.2) houtcome
  refine ⟨hanswer, fun reason hreason => ?_, fun habort => ?_, fun hcall => ?_⟩
  · have hfailed : s.channel.failure ≠ none := by simp [hbefore, hreason]
    exact ⟨delivered_follow_of_failure hreflects hover hfailed more,
      Channel.failsWith_of_failure (hfailure.trans hreason)⟩
  · have habort' : Signal.EndsWithAbort h.processed := by
      rw [Signal.endsWithAbort_iff, ← htracks.reflects.isDone_eq, ← htracks.reflects.failure_eq]
      exact ⟨hreflects.isDone_eq.trans hover, hbefore.trans habort⟩
    exact ⟨delivered_rows_follow hreflects hover (htracks.not_storing habort') more,
      Channel.runsOut_of_abort hdone (hfailure.trans habort)⟩
  · refine (halert .caller).resolve_right fun hblocked => ?_
    obtain ⟨⟨label, call⟩, hrunning⟩ := Option.isSome_iff_exists.mp hcall
    exact PullCall.not_asleep_of_done hdone (hblocked label call hrunning)

/-- A header, a row that is buffered, a row for which there is no slot, and a failure from outside
while that row waits. -/
def abandonedInPause : List Action :=
  [.feed [0, 0, 0, 2, 0, 1, 1, 97, 4], .turn .handler, .turn .handler,
    .feed [0, 0, 0, 2, 1, 1, 4, 1], .turn .handler, .turn .handler, .turn .handler,
    .feed [0, 0, 0, 2, 1, 1, 4, 0], .turn .handler, .turn .handler, .turn .handler,
    .abandon (.timeout "late")]

/-- Then the caller asks for both rows, and an abort arrives. -/
def askedAfterwards : List Action :=
  [.perform 0 .take, .turn .handler, .feed [0, 0, 0, 2, 2], .turn .handler, .turn .handler,
    .perform 1 .take]

/-- Neither the buffered row nor the one that waits is delivered after the failure. -/
theorem isFinal_abandonedInPause :
    IsFinal (some [⟨"a", .boolean⟩]) (some (.timeout "late"))
      (runOf 2 1 (.ofSeconds 30) abandonedInPause).1
      (runOf 2 1 (.ofSeconds 30) abandonedInPause).2
      ((runOf 2 1 (.ofSeconds 30) abandonedInPause).1.follow
        (runOf 2 1 (.ofSeconds 30) abandonedInPause).2 askedAfterwards).1
      ((runOf 2 1 (.ofSeconds 30) abandonedInPause).1.follow
        (runOf 2 1 (.ofSeconds 30) abandonedInPause).2 askedAfterwards).2 :=
  isFinal_runOf 2 1 (.ofSeconds 30) abandonedInPause askedAfterwards
    [.decoded (.columns [⟨"a", .boolean⟩]), .decoded (.row [.boolean true]),
      .decoded (.row [.boolean false])] (.abandoned (.timeout "late")) [] rfl rfl rfl

end StatementSession

end BeeProtocol
