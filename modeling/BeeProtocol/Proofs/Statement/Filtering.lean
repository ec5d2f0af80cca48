import BeeProtocol.Proofs.Statement.Delivery

/-!
# Delivery as a filter

What a caller gets is a plain filter of what the handler has processed, for every capacity and every
order of actions. If the statement ends with an abort, a caller that goes on asking gets exactly the
accepted rows, and it is told that there are no more only after it has got the last one.
-/

namespace BeeProtocol

namespace Signal

/-- The first end is an abort. -/
def EndsWithAbort (log : List Signal) : Prop := log.find? ends = some (.decoded .abort)

/-- Whether a signal comes from a payload. -/
def isPayload : Signal → Bool
  | abandoned _ => false
  | _ => true

/-- A payload is a signal of that kind. -/
theorem isPayload_ofPayload (payload : List UInt8) : (ofPayload payload).isPayload := by
  unfold ofPayload
  split <;> rfl

/-- Only an abort ends a statement without a failure. -/
theorem endsWithAbort_iff {log : List Signal} :
    EndsWithAbort log ↔ isOver log ∧ failureOf log = none := by
  constructor
  · intro habort
    refine ⟨?_, ?_⟩
    · have hmem := List.mem_of_find?_eq_some habort
      exact List.any_eq_true.mpr ⟨_, hmem, rfl⟩
    · rw [failureOf, show log.find? ends = some (.decoded .abort) from habort]
      rfl
  · rintro ⟨hover, hfailure⟩
    obtain ⟨last, hlast⟩ : ∃ last, log.find? ends = some last :=
      Option.isSome_iff_exists.mp (by simpa [isOver] using hover)
    have hends := List.find?_some hlast
    rw [failureOf, hlast, Option.bind_some] at hfailure
    rw [EndsWithAbort, hlast]
    cases last with
    | decoded event =>
      cases event with
      | columns header => simp [ends, StatementEvent.isTerminal] at hends
      | row values => simp [ends, StatementEvent.isTerminal] at hends
      | abort => rfl
      | error reason => simp [failure?] at hfailure
    | malformed reason => simp [failure?] at hfailure
    | abandoned reason => simp [failure?] at hfailure

/-- The first end stays the first. -/
theorem EndsWithAbort.append {log : List Signal} (h : EndsWithAbort log) (more : List Signal) :
    EndsWithAbort (log ++ more) := by
  obtain ⟨hover, hfailure⟩ := endsWithAbort_iff.mp h
  refine endsWithAbort_iff.mpr ⟨?_, (failureOf_append_of_isOver hover more).trans hfailure⟩
  rw [isOver_append, hover, Bool.true_or]

/-- A statement that is abandoned first does not end with an abort. -/
theorem not_endsWithAbort {log : List Signal} (h : isOver log = false)
    (reasons : List ClientError) : ¬ EndsWithAbort (log ++ reasons.map abandoned) := by
  intro habort
  rcases List.mem_append.mp (List.mem_of_find?_eq_some habort) with hlog | hreasons
  · have hover : isOver log := List.any_eq_true.mpr ⟨_, hlog, rfl⟩
    simp [h] at hover
  · simp at hreasons

/-- The signals that payloads bring are as good as all, up to an abort. -/
theorem EndsWithAbort.accepted_payloads {log : List Signal} (h : EndsWithAbort log)
    (more : List Signal) : accepted (log.filter isPayload ++ more) = accepted log := by
  obtain ⟨-, before, after, rfl, hbefore⟩ := List.find?_eq_some_iff_append.mp h
  have hover : isOver (before ++ [.decoded .abort]) := by
    simp [isOver, ends, StatementEvent.isTerminal]
  have hpayloads : before.filter isPayload = before := by
    apply List.filter_eq_self.mpr
    intro signal hsignal
    cases signal with
    | decoded event => rfl
    | malformed reason => rfl
    | abandoned reason => simpa [ends] using hbefore _ hsignal
  have hcut (rest : List Signal) :
      accepted (before ++ .decoded .abort :: rest) = accepted (before ++ [.decoded .abort]) := by
    rw [← List.singleton_append, ← List.append_assoc, accepted_append_of_isOver hover]
  rw [List.filter_append, hpayloads, List.filter_cons_of_pos rfl, List.append_assoc,
    List.cons_append]
  exact (hcut _).trans (hcut after).symm

end Signal

/-- The payload that the handler has taken and not decoded. -/
def Intake.payloads : Intake → List (List UInt8)
  | .decoding payload => [payload]
  | _ => []

namespace StatementSession

/-- The payload that an action feeds. -/
def Action.payload? : Action → Option (List UInt8)
  | .feed payload => some payload
  | _ => none

/-- The payloads that actions feed, in order. -/
def fedBy (actions : List Action) : List (List UInt8) := actions.filterMap Action.payload?

/-- Whether an action asks for a row and the caller may ask. -/
def asks (s : StatementSession) : Action → Bool
  | .perform _ .take => s.holder == .nobody
  | .turn .caller => s.call.any (·.2.pull.takesRows)
  | _ => false

/-- How often the caller asks for a row. -/
def asked (s : StatementSession) : List Action → Nat
  | [] => 0
  | action :: actions => (if s.asks action then 1 else 0) + (s.act action).asked actions

variable {s : StatementSession} {h : StatementHistory}

/-! ### Handlers that are cut off only at their end -/

/-- Nothing is left out of what was processed, or the handler was let go of with a row in its hands.
-/
def Whole (s : StatementSession) (h : StatementHistory) : Prop :=
  h.processed = h.begun ∨
    s.isAttached = false ∧ Signal.accepted h.processed <+: Signal.accepted h.begun ∧
      ¬ Signal.EndsWithAbort h.processed

/-- A handler that was let go of never comes back. -/
theorem detached_act (hdetached : s.isAttached = false) (action : Action) :
    (s.act action).isAttached = false := by
  have hside := (s.act_fields action).2
  have hthird : (s.act action).isAttached = (s.sideAfter action).2.2 := congrArg (·.2.2) hside
  rw [hthird]
  cases action with
  | feed payload => simp [sideAfter, side, hdetached]
  | cutOff => exact hdetached
  | dropHandler => simp [sideAfter, side, hdetached]
  | turn who =>
    cases who with
    | handler =>
      dsimp only [sideAfter]
      split <;> exact hdetached
    | caller => exact hdetached
  | _ => exact hdetached

/-- A handler that was let go of hears nothing. -/
theorem Tracks.note_hearings_of_detached (hs : s.Tracks h) (hdetached : s.isAttached = false)
    (action : Action) : (s.note h action).hearings = h.hearings := by
  have hidle := (hs.idle hdetached).1
  cases action with
  | abandon reason => simp [note, hdetached]
  | cutOff => simp [note, hidle, StatementHistory.cut]
  | dropHandler => simp [note, hdetached]
  | turn who =>
    cases who with
    | handler => simp [note, hidle]
    | caller =>
      dsimp only [note]
      split <;> rfl
  | _ => rfl

/-- The history stays whole as long as no decoding is cut off. -/
theorem Whole.act (hw : s.Whole h) (hs : s.Tracks h) {action : Action} (hkeeps : action ≠ .cutOff) :
    (s.act action).Whole (s.note h action) := by
  rcases hw with hwhole | ⟨hdetached, hbeginning, habort⟩
  · have hheard (signal : Signal) : (h.hear signal).processed = (h.hear signal).begun := by
      rw [h.processed_hear, h.begun_hear, hwhole]
    cases action with
    | cutOff => exact absurd rfl hkeeps
    | abandon reason =>
      dsimp only [note]
      split
      · exact .inl (hheard _)
      · exact .inl hwhole
    | dropHandler =>
      dsimp only [note]
      cases hattached : s.isAttached with
      | false => exact .inl hwhole
      | true =>
        rw [if_pos rfl]
        cases hhand : s.intake with
        | idle => exact .inl (hheard _)
        | decoding payload => exact .inl (hheard _)
        | storing row =>
          obtain ⟨before, signal, reasons, hnext, hall, hcut⟩ :=
            (hs.pauses row hhand).exists_processed
          refine .inr ⟨?_, ?_, ?_⟩
          · simp [StatementSession.act, dropHandler, hattached]
          · rw [StatementHistory.processed_hear, StatementHistory.begun_hear, hcut,
              StatementHistory.begun_cut, ← hwhole, hall]
            have hmore := Signal.accepted_prefix_append before
              (signal :: reasons.map Signal.abandoned ++ [.abandoned .connectionClosed])
            have hsame := Signal.accepted_append_abandoned before (reasons ++ [.connectionClosed])
            rw [List.map_append, ← List.append_assoc] at hsame
            rw [← hsame] at hmore
            simpa using hmore
          · rw [StatementHistory.processed_hear, hcut, List.append_assoc, ← List.map_singleton,
              ← List.map_append]
            exact Signal.not_endsWithAbort (Signal.of_nextRow? hnext).1 _
    | turn who =>
      cases who with
      | handler =>
        dsimp only [note]
        split
        · exact .inl (hheard _)
        · exact .inl hwhole
      | caller =>
        dsimp only [note]
        split <;> exact .inl hwhole
    | _ => exact .inl hwhole
  · refine .inr ⟨detached_act hdetached action, ?_⟩
    have hsame := hs.note_hearings_of_detached hdetached action
    rw [StatementHistory.processed, StatementHistory.begun, hsame]
    exact ⟨hbeginning, habort⟩

/-! ### The payloads that were fed -/

/-- The payloads that were fed are those that were heard, those before the handler, and those that
are lost because the handler was let go of. -/
def Fed (s : StatementSession) (h : StatementHistory) (fed : List (List UInt8)) : Prop :=
  ∃ lost, fed.map Signal.ofPayload = h.begun.filter Signal.isPayload ++
      (s.intake.payloads ++ s.queue).map Signal.ofPayload ++ lost ∧
    (s.isAttached → lost = [])

variable {fed : List (List UInt8)}

/-- What was fed is the same if neither the payloads begun nor the side of the handler change. -/
theorem Fed.of_same (hf : s.Fed h fed) {s' : StatementSession} {h' : StatementHistory}
    (hbegun : h'.begun.filter Signal.isPayload = h.begun.filter Signal.isPayload)
    (hside : s'.side = s.side) : s'.Fed h' fed := by
  obtain ⟨hintake, hqueue, hattached⟩ := side_eq_iff.mp hside
  unfold Fed
  rw [hbegun, hintake, hqueue, hattached]
  exact hf

/-- One more payload is fed. -/
theorem Fed.feed (hf : s.Fed h fed) (payload : List UInt8) :
    (s.act (.feed payload)).Fed h (fed ++ [payload]) := by
  obtain ⟨lost, hfed, hlost⟩ := hf
  have hside := (s.act_fields (.feed payload)).2
  dsimp only [sideAfter] at hside
  cases hattached : s.isAttached with
  | false =>
    rw [hattached, if_neg (by simp)] at hside
    obtain ⟨hintake, hqueue, hdetached⟩ := side_eq_iff.mp hside
    refine ⟨lost ++ [.ofPayload payload], ?_, by simp [hdetached, hattached]⟩
    rw [hintake, hqueue, List.map_append, hfed, List.append_assoc _ lost]
    rfl
  | true =>
    rw [hattached, if_pos rfl] at hside
    obtain ⟨hintake, hqueue, -⟩ := side_eq_iff.mp hside
    refine ⟨[], ?_, fun _ => rfl⟩
    rw [hintake, hqueue, List.map_append, hfed, hlost hattached]
    simp

/-- Letting go of the handler feeds nothing. -/
theorem Fed.dropHandler (hf : s.Fed h fed) :
    (s.act .dropHandler).Fed (s.note h .dropHandler) fed := by
  have hside := (s.act_fields .dropHandler).2
  dsimp only [sideAfter, note] at hside ⊢
  cases hattached : s.isAttached with
  | false =>
    rw [hattached, if_neg (by simp)] at hside
    rw [if_neg (by simp)]
    exact hf.of_same rfl hside
  | true =>
    rw [hattached, if_pos rfl] at hside
    rw [if_pos rfl]
    obtain ⟨hintake, hqueue, hdetached⟩ := side_eq_iff.mp hside
    obtain ⟨lost, hfed, hlost⟩ := hf
    refine ⟨(s.intake.payloads ++ s.queue).map Signal.ofPayload, ?_, by simp [hdetached]⟩
    rw [StatementHistory.begun_hear, StatementHistory.begun_cut, List.filter_append, hintake,
      hqueue, hfed, hlost hattached]
    simp [Signal.isPayload, Intake.payloads]

/-- The handler takes a payload from the queue and begins it. -/
theorem Fed.turn_handler (hf : s.Fed h fed) :
    (s.act (.turn .handler)).Fed (s.note h (.turn .handler)) fed := by
  have hside := (s.act_fields (.turn .handler)).2
  dsimp only [sideAfter, note] at hside ⊢
  obtain ⟨lost, hfed, hlost⟩ := hf
  cases hhand : s.intake with
  | idle =>
    rw [hhand] at hside hfed
    cases hqueue : s.queue with
    | nil =>
      rw [hqueue] at hside
      exact Fed.of_same ⟨lost, hhand.symm ▸ hfed, hlost⟩ rfl hside
    | cons payload queue =>
      rw [hqueue] at hside hfed
      obtain ⟨hintake, hqueue, hattached⟩ := side_eq_iff.mp hside
      refine ⟨lost, ?_, hattached ▸ hlost⟩
      rw [hintake, hqueue]
      exact hfed
  | decoding payload =>
    rw [hhand] at hside hfed
    obtain ⟨hintake, hqueue, hattached⟩ := side_eq_iff.mp hside
    refine ⟨lost, ?_, hattached ▸ hlost⟩
    have hnone : (s.act (.turn .handler)).intake.payloads = [] := by
      rw [hintake]
      cases (s.channel.receive payload).2 <;> rfl
    have hbegun : (h.decode payload).begun = h.begun ++ [.ofPayload payload] := h.begun_hear _
    rw [hfed, hnone, hqueue, hbegun, List.filter_append,
      List.filter_cons_of_pos (Signal.isPayload_ofPayload payload)]
    simp [Intake.payloads]
  | storing row =>
    rw [hhand] at hside hfed
    obtain ⟨hintake, hqueue, hattached⟩ := side_eq_iff.mp hside
    refine ⟨lost, ?_, hattached ▸ hlost⟩
    have hnone : (s.act (.turn .handler)).intake.payloads = [] := by
      rw [hintake]
      split <;> rfl
    rw [hfed, hnone, hqueue]
    rfl

/-- Every action feeds the payload that it brings and no other. -/
theorem Fed.act (hf : s.Fed h fed) {action : Action} (hkeeps : action ≠ .cutOff) :
    (s.act action).Fed (s.note h action) (fed ++ action.payload?.toList) := by
  have hside := (s.act_fields action).2
  cases action with
  | feed payload => exact hf.feed payload
  | cutOff => exact absurd rfl hkeeps
  | dropHandler => simpa [Action.payload?] using hf.dropHandler
  | abandon reason =>
    simp only [Action.payload?, Option.toList_none, List.append_nil]
    refine hf.of_same ?_ hside
    dsimp only [note]
    split
    · simp [StatementHistory.begun_hear, Signal.isPayload]
    · rfl
  | turn who =>
    simp only [Action.payload?, Option.toList_none, List.append_nil]
    cases who with
    | handler => exact hf.turn_handler
    | caller =>
      refine hf.of_same ?_ hside
      dsimp only [note]
      split <;> rfl
  | _ => exact (List.append_nil fed).symm ▸ hf.of_same rfl hside

/-- After an abort, the accepted rows are those that the payloads bring, in whatever order things
were done. -/
theorem Fed.accepted_eq (hf : s.Fed h fed) (hw : s.Whole h)
    (habort : Signal.EndsWithAbort h.processed) :
    Signal.accepted h.processed = Signal.accepted (fed.map Signal.ofPayload) := by
  rcases hw with hwhole | ⟨-, -, hnone⟩
  · obtain ⟨lost, hfed, -⟩ := hf
    rw [hwhole] at habort ⊢
    rw [hfed, List.append_assoc, habort.accepted_payloads]
  · exact absurd habort hnone

/-! ### Asking for rows -/

/-- A response that was dropped is never taken up again. -/
theorem isDropped_act (hdropped : s.channel.isDropped = true) (action : Action) :
    (s.act action).channel.isDropped = true := by
  rw [(s.act_fields action).1]
  cases action with
  | abandon reason =>
    dsimp only [channelAfter]
    split <;> simp [hdropped]
  | cutOff =>
    dsimp only [channelAfter]
    split <;> simp [hdropped]
  | dropHandler =>
    dsimp only [channelAfter, Channel.letGo]
    split <;> simp [hdropped]
  | perform label step =>
    dsimp only [channelAfter]
    split <;> simp [hdropped, Channel.drop]
  | cancel label =>
    dsimp only [channelAfter]
    split <;> simp [hdropped, Channel.drop]
  | turn who =>
    cases who with
    | handler =>
      dsimp only [channelAfter]
      split <;> simp [hdropped, Channel.receive_eq]
    | caller =>
      dsimp only [channelAfter]
      split
      · rename_i label call _
        have hturn := call.turn_isDropped s.now s.channel
        split <;> rename_i heq <;> rw [heq] at hturn
        · split
          · rfl
          · exact hturn.trans hdropped
        · exact hturn.trans hdropped
      · exact hdropped
  | _ => exact hdropped

/-- A response that is dropped stays so. -/
theorem isDropped_follow (hdropped : s.channel.isDropped = true) (actions : List Action) :
    (s.follow h actions).1.channel.isDropped = true :=
  follow_invariant (P := fun s _ => s.channel.isDropped = true)
    (fun _ _ action hdropped => isDropped_act hdropped action) hdropped actions

/-- A handler that has a row to store has heard of no abort. -/
theorem Tracks.not_storing (hs : s.Tracks h) (habort : Signal.EndsWithAbort h.processed)
    (row : Row) : s.intake ≠ .storing row := by
  intro hstoring
  obtain ⟨before, signal, reasons, hnext, hall, -⟩ := (hs.pauses row hstoring).exists_processed
  obtain ⟨hbefore, hends, -⟩ := Signal.of_nextRow? hnext
  have hgoesOn : Signal.isOver (before ++ [signal]) = false := by
    rw [Signal.isOver_append, hbefore]
    simp [Signal.isOver, hends]
  rw [hall, ← List.singleton_append, ← List.append_assoc] at habort
  exact Signal.not_endsWithAbort hgoesOn reasons habort

/-- If no row waits to be stored, the caller has got all accepted rows that are not buffered. -/
theorem Tracks.complete (hs : s.Tracks h) (hkept : s.channel.isDropped = false)
    (hnone : ∀ row, s.intake ≠ .storing row) :
    h.delivered ++ s.channel.rows = Signal.accepted h.processed := by
  have hrows := hs.rows hkept
  cases hhand : s.intake with
  | idle => simpa [hhand, Intake.rows] using hrows
  | decoding payload => simpa [hhand, Intake.rows] using hrows
  | storing row => exact absurd hhand (hnone row)

/-- After an abort, more signals may be heard but none is taken back. -/
theorem Tracks.exists_processed_note (hs : s.Tracks h)
    (habort : Signal.EndsWithAbort h.processed) (action : Action) :
    ∃ more, (s.note h action).processed = h.processed ++ more := by
  have hcut : h.cut s.intake = h := by
    cases hhand : s.intake with
    | idle => rfl
    | decoding payload => rfl
    | storing row => exact absurd hhand (hs.not_storing habort row)
  have hsame : ∃ more, h.processed = h.processed ++ more := ⟨[], by simp⟩
  cases action with
  | abandon reason =>
    dsimp only [note]
    split
    · exact ⟨_, h.processed_hear _⟩
    · exact hsame
  | cutOff =>
    dsimp only [note]
    rw [hcut]
    exact hsame
  | dropHandler =>
    dsimp only [note]
    rw [hcut]
    split
    · exact ⟨_, h.processed_hear _⟩
    · exact hsame
  | turn who =>
    cases who with
    | handler =>
      dsimp only [note]
      split
      · exact ⟨_, h.processed_hear _⟩
      · exact hsame
    | caller =>
      dsimp only [note]
      split <;> exact hsame
  | _ => exact hsame

/-- The rows that the caller has got are never taken back. -/
theorem delivered_note (s : StatementSession) (h : StatementHistory) (action : Action) :
    h.delivered <+: (s.note h action).delivered := by
  cases action with
  | abandon reason =>
    dsimp only [note]
    split <;> exact List.prefix_refl _
  | cutOff =>
    dsimp only [note, StatementHistory.cut]
    split <;> exact List.prefix_refl _
  | dropHandler =>
    dsimp only [note, StatementHistory.cut]
    split
    · split <;> exact List.prefix_refl _
    · exact List.prefix_refl _
  | perform label step => exact List.prefix_append _ _
  | turn who =>
    cases who with
    | handler =>
      dsimp only [note]
      split <;> exact List.prefix_refl _
    | caller =>
      dsimp only [note]
      split
      · exact List.prefix_append _ _
      · exact List.prefix_refl _
  | _ => exact List.prefix_refl _

/-- Who asks for a row while one is buffered gets the oldest one. -/
theorem delivered_of_asks {action : Action} (hasks : s.asks action)
    (hfailure : s.channel.failure = none) {row : Row} {rows : List Row}
    (hrows : s.channel.rows = row :: rows) :
    (s.note h action).delivered = h.delivered ++ [row] := by
  cases action with
  | perform label step =>
    cases step with
    | take =>
      have hholder : s.holder = .nobody := by simpa [asks] using hasks
      simp [note, perform, hholder, next, Channel.take, hfailure, hrows, ResponseAnswer.rows,
        StatementHistory.deliver]
    | _ => simp [asks] at hasks
  | turn who =>
    cases who with
    | handler => simp [asks] at hasks
    | caller =>
      cases hcall : s.call with
      | none => simp [asks, hcall] at hasks
      | some running =>
        have htakes : running.2.pull.takesRows := by simpa [asks, hcall] using hasks
        simp [note, hcall, PullCall.gained_of_takes htakes s.now hfailure hrows,
          StatementHistory.deliver]
  | _ => simp [asks] at hasks

/-- After an abort, each time that the caller asks it gets a row, until it has got all. -/
theorem Tracks.length_delivered_follow (hs : s.Tracks h)
    (habort : Signal.EndsWithAbort h.processed) (actions : List Action)
    (hkept : (s.follow h actions).1.channel.isDropped = false) :
    min (Signal.accepted h.processed).length (h.delivered.length + s.asked actions) ≤
      (s.follow h actions).2.delivered.length ∧
    (s.follow h actions).2.delivered <+: Signal.accepted h.processed := by
  have hnow : s.channel.isDropped = false := by
    by_contra hdropped
    rw [isDropped_follow (by simpa using hdropped)] at hkept
    simp at hkept
  have hall := hs.complete hnow (hs.not_storing habort)
  induction actions generalizing s h with
  | nil =>
    refine ⟨?_, hall ▸ List.prefix_append _ _⟩
    simp only [asked, follow, Nat.add_zero]
    exact Nat.min_le_right _ _
  | cons action actions ih =>
    obtain ⟨more, hmore⟩ := hs.exists_processed_note habort action
    have hover := (Signal.endsWithAbort_iff.mp habort).1
    have hsame : Signal.accepted (s.note h action).processed = Signal.accepted h.processed := by
      rw [hmore, Signal.accepted_append_of_isOver hover]
    have hs' := hs.act action
    have habort' : Signal.EndsWithAbort (s.note h action).processed := hmore ▸ habort.append more
    have hnow' : (s.act action).channel.isDropped = false := by
      by_contra hdropped
      have hend := isDropped_follow (h := s.note h action) (by simpa using hdropped) actions
      rw [follow] at hkept
      rw [hend] at hkept
      simp at hkept
    obtain ⟨hlength, hbeginning⟩ := ih hs' habort' hkept hnow'
      (hs'.complete hnow' (hs'.not_storing habort'))
    rw [hsame] at hlength hbeginning
    refine ⟨?_, hbeginning⟩
    have hgrows := (s.delivered_note h action).length_le
    have hstep : min (Signal.accepted h.processed).length
        (h.delivered.length + if s.asks action then 1 else 0) ≤
          (s.note h action).delivered.length := by
      cases hrows : s.channel.rows with
      | nil =>
        rw [hrows, List.append_nil] at hall
        rw [← hall]
        omega
      | cons row rows =>
        have hfailure : s.channel.failure = none := by
          rw [hs.reflects.failure_eq, (Signal.endsWithAbort_iff.mp habort).2]
        split
        · rename_i hasks
          rw [delivered_of_asks hasks hfailure hrows, List.length_append]
          exact Nat.min_le_right _ _
        · omega
    rw [asked, follow]
    omega

/-! ### Being told that there are no more rows -/

/-- The caller's turn adds a result exactly when its call ends. -/
theorem callerTurn_finished (s : StatementSession) :
    s.callerTurn.1.finished =
      match s.call with
      | some (label, call) =>
        match (call.turn s.now s.channel).1 with
        | .finished result => s.finished ++ [(label, result)]
        | _ => s.finished
      | none => s.finished := by
  unfold callerTurn
  cases hcall : s.call with
  | none => rfl
  | some running =>
    obtain ⟨label, call⟩ := running
    obtain ⟨ready, hset⟩ := s.setChannel_eq (call.turn s.now s.channel).2
    dsimp only
    rw [hset]
    cases hprogress : (call.turn s.now s.channel).1 with
    | again call' => rfl
    | asleep => rfl
    | finished result =>
      unfold finish
      dsimp only
      split
      · obtain ⟨ready', hdrop⟩ := setChannel_eq
          { s with
            channel := (call.turn s.now s.channel).2
            call := none
            ready := ready
            finished := s.finished ++ [(label, result)] } (call.turn s.now s.channel).2.drop
        rw [hdrop]
      · rfl

/-- A call that ends in the caller's turn has just taken its turn. -/
theorem exists_turn_of_finished {label : Nat} {result : PullResult}
    (hfinished : (s.act (.turn .caller)).finished = s.finished ++ [(label, result)]) :
    ∃ call : PullCall, (call.turn s.now s.channel).1 = .finished result := by
  have hturn := callerTurn_finished { s with ready := s.ready.erase .caller }
  have hact : (s.act (.turn .caller)).finished =
      ({ s with ready := s.ready.erase .caller } : StatementSession).callerTurn.1.finished := by
    dsimp only [act, turnOf]
    split <;> rfl
  rw [hact, hturn] at hfinished
  dsimp only at hfinished
  split at hfinished
  · rename_i label' call _
    split at hfinished
    · rename_i result' hresult'
      obtain ⟨-, rfl⟩ : label' = label ∧ result' = result := by simpa using hfinished
      exact ⟨call, hresult'⟩
    · simp at hfinished
  · simp at hfinished

/-- A call that says that there are no more rows has found the buffer empty after an abort. -/
theorem Tracks.of_saysNoMore (hs : s.Tracks h) (hkept : s.channel.isDropped = false) {label : Nat}
    {result : PullResult}
    (hfinished : (s.act (.turn .caller)).finished = s.finished ++ [(label, result)])
    (hnoMore : result.saysNoMore) :
    h.delivered = Signal.accepted h.processed ∧ Signal.EndsWithAbort h.processed := by
  obtain ⟨call, hturn⟩ := exists_turn_of_finished hfinished
  have hempty : s.channel.isDone ∧ s.channel.failure = none ∧ s.channel.rows = [] := by
    rcases call.turn_cases s.now s.channel with hpasses | ⟨htakes, hfailure, row, rows, hrows⟩
    · rcases hpasses.2 with hasleep | ⟨result', hresult', -, hnone⟩
      · simp [hasleep] at hturn
      · obtain rfl : result' = result := by simpa [hresult'] using hturn
        exact (hnone hnoMore).2
    · rw [PullCall.turn_takes htakes s.now hfailure hrows] at hturn
      unfold PullCall.took at hturn
      split at hturn
      · simp at hturn
      · simp at hturn
      · obtain rfl := PullProgress.finished.inj hturn
        simp [PullResult.saysNoMore] at hnoMore
  obtain ⟨hdone, hfailure, hrows⟩ := hempty
  have habort : Signal.EndsWithAbort h.processed := by
    refine Signal.endsWithAbort_iff.mpr ⟨?_, ?_⟩
    · rw [← hs.reflects.isDone_eq, hdone]
    · rw [← hs.reflects.failure_eq, hfailure]
  have hall := hs.complete hkept (hs.not_storing habort)
  rw [hrows, List.append_nil] at hall
  exact ⟨hall, habort⟩

/-! ### Runs -/

/-- What a caller of a response can rely on after some actions. -/
structure Delivers (actions : List Action) (s : StatementSession) (h : StatementHistory) :
    Prop where
  /-- The rows are the first accepted ones. -/
  inOrder : h.delivered ++ s.channel.rows <+: Signal.accepted h.processed
  /-- Only a row that waits to be stored can be missing. -/
  complete : (∀ row, s.intake ≠ .storing row) →
    h.delivered ++ s.channel.rows = Signal.accepted h.processed
  /-- This is so even if a signal counts whose handling ended with the handler. -/
  inOrder_begun : .cutOff ∉ actions →
    h.delivered ++ s.channel.rows <+: Signal.accepted h.begun
  /-- Without a row in the hands of the handler, and if no decoding was cut off, all rows that were
  begun are delivered or buffered. -/
  complete_begun : (∀ row, s.intake ≠ .storing row) → (∀ x ∈ h.hearings, x.isCut = false) →
    h.delivered ++ s.channel.rows = Signal.accepted h.begun
  /-- The caller is told that there are no more rows only after it has got all. -/
  noMore : ∀ label result, (s.act (.turn .caller)).finished = s.finished ++ [(label, result)] →
    result.saysNoMore →
      h.delivered = Signal.accepted h.processed ∧ Signal.EndsWithAbort h.processed
  /-- After an abort, asking often enough brings exactly the accepted rows. -/
  all : Signal.EndsWithAbort h.processed → ∀ more,
    (s.follow h more).1.channel.isDropped = false →
    (Signal.accepted h.processed).length ≤ h.delivered.length + s.asked more →
    (s.follow h more).2.delivered = Signal.accepted h.processed
  /-- They are a matter of the payloads alone. -/
  ofPayloads : Signal.EndsWithAbort h.processed → .cutOff ∉ actions →
    Signal.accepted h.processed = Signal.accepted ((fedBy actions).map Signal.ofPayload)

/-- What holds on the way to a state holds there, if the handler is cut off only at its end. -/
theorem whole_fed_follow (hs : s.Tracks h) (hw : s.Whole h) (hf : s.Fed h fed)
    (actions : List Action) (hkeeps : .cutOff ∉ actions) :
    (s.follow h actions).1.Whole (s.follow h actions).2 ∧
      (s.follow h actions).1.Fed (s.follow h actions).2 (fed ++ fedBy actions) := by
  induction actions generalizing s h fed with
  | nil => exact ⟨hw, (List.append_nil fed).symm ▸ hf⟩
  | cons action actions ih =>
    rw [List.mem_cons, not_or] at hkeeps
    have hstep := ih (hs.act action) (hw.act hs (Ne.symm hkeeps.1)) (hf.act (Ne.symm hkeeps.1))
      hkeeps.2
    rw [List.append_assoc] at hstep
    have hfed : fedBy (action :: actions) = action.payload?.toList ++ fedBy actions := by
      unfold fedBy
      cases hpayload : action.payload? <;> simp [hpayload]
    rw [hfed]
    exact hstep

/-- As long as the response is not dropped, its caller gets what a filter of the signals lets
through, whatever the capacity and the order of actions. -/
theorem delivers_runOf (id : UInt32) (capacity : Nat) (bound : Duration) (actions : List Action)
    (hkept : (runOf id capacity bound actions).1.channel.isDropped = false) :
    Delivers actions (runOf id capacity bound actions).1 (runOf id capacity bound actions).2 := by
  have hstart := Tracks.fresh id capacity bound
  have hs : (runOf id capacity bound actions).1.Tracks (runOf id capacity bound actions).2 :=
    follow_invariant (fun _ _ action hs => hs.act action) hstart actions
  have hrest (hkeeps : .cutOff ∉ actions) := whole_fed_follow hstart (.inl rfl)
    (show (fresh id capacity bound).Fed .empty [] from ⟨[], rfl, fun _ => rfl⟩) actions hkeeps
  obtain ⟨s, h, hrun⟩ : ∃ s h, runOf id capacity bound actions = (s, h) := ⟨_, _, rfl⟩
  change ∀ _, (runOf id capacity bound actions).1.Whole (runOf id capacity bound actions).2 ∧
    (runOf id capacity bound actions).1.Fed (runOf id capacity bound actions).2
      ([] ++ fedBy actions) at hrest
  rw [hrun] at hs hkept hrest ⊢
  have hbeginning : h.delivered ++ s.channel.rows <+: Signal.accepted h.processed :=
    ⟨s.intake.rows, hs.rows hkept⟩
  refine ⟨hbeginning, hs.complete hkept, ?_, ?_, ?_, ?_, ?_⟩
  · intro hkeeps
    rcases (hrest hkeeps).1 with hwhole | ⟨-, hbegun, -⟩
    · exact hwhole ▸ hbeginning
    · exact hbeginning.trans hbegun
  · intro hnone huncut
    have hwhole : h.processed = h.begun := by
      rw [StatementHistory.processed, Hearing.completed, List.filter_eq_self.mpr]
      · rfl
      · intro x hx
        simp [huncut x hx]
    rw [← hwhole]
    exact hs.complete hkept hnone
  · intro label result hfinished hnoMore
    exact hs.of_saysNoMore hkept hfinished hnoMore
  · intro habort more hkept' hasked
    obtain ⟨hlength, hdelivered⟩ := hs.length_delivered_follow habort more hkept'
    exact hdelivered.eq_of_length_le (by omega)
  · intro habort hkeeps
    exact (hrest hkeeps).2.accepted_eq (hrest hkeeps).1 habort

/-- A header of one column, two rows that pass through a buffer for one, and an abort. -/
def twoRows : List Action :=
  [.feed [0, 0, 0, 2, 0, 1, 1, 97, 4], .turn .handler, .turn .handler,
    .feed [0, 0, 0, 2, 1, 1, 4, 1], .turn .handler, .turn .handler, .turn .handler,
    .feed [0, 0, 0, 2, 1, 1, 4, 0], .turn .handler, .turn .handler, .turn .handler,
    .perform 0 .take, .turn .handler, .feed [0, 0, 0, 2, 2], .turn .handler, .turn .handler,
    .perform 1 (.pull .nextRow none), .turn .caller]

/-- Two rows are delivered although the second one has to wait for the first one to be taken. -/
theorem delivers_twoRows :
    (runOf 2 1 (.ofSeconds 30) twoRows).1.channel.isDropped = false ∧
      (runOf 2 1 (.ofSeconds 30) twoRows).2.delivered.map (·.values) =
        [[.boolean true], [.boolean false]] ∧
      Delivers twoRows (runOf 2 1 (.ofSeconds 30) twoRows).1
        (runOf 2 1 (.ofSeconds 30) twoRows).2 :=
  ⟨by decide, by decide, delivers_runOf 2 1 (.ofSeconds 30) twoRows (by decide)⟩

end StatementSession

end BeeProtocol
