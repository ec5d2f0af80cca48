import BeeProtocol.Proofs.Statement.Run

/-!
# Delivery of rows

The rows that a caller has got, those that are buffered and the one that waits to be stored are
together the rows that the signals let through. Every action keeps this as long as the response is
not dropped.
-/

namespace BeeProtocol

/-- The row that the handler has to store. -/
def Intake.rows : Intake → List Row
  | .idle => []
  | .decoding _ => []
  | .storing row => [row]

namespace Hearing

/-- What was completed in two parts adds up. -/
theorem completed_append (first second : List Hearing) :
    completed (first ++ second) = completed first ++ completed second := by
  simp [completed]

/-- A hearing is completed unless it was cut off. -/
theorem completed_cons (hearing : Hearing) (hearings : List Hearing) :
    completed (hearing :: hearings) =
      (if hearing.isCut then [] else [hearing.signal]) ++ completed hearings := by
  cases hcut : hearing.isCut <;> simp [completed, hcut]

/-- Failures from outside are never cut off. -/
theorem completed_abandoned (reasons : List ClientError) :
    completed (reasons.map fun reason => ⟨.abandoned reason, false⟩) =
      reasons.map Signal.abandoned := by
  induction reasons with
  | nil => rfl
  | cons reason reasons ih =>
    rw [List.map_cons, completed_cons, ih]
    rfl

end Hearing

namespace StatementHistory

variable (h : StatementHistory)

/-- A signal that is heard is processed. -/
theorem processed_hear (signal : Signal) :
    (h.hear signal).processed = h.processed ++ [signal] := by
  rw [processed, hear, Hearing.completed_append]
  rfl

/-- A signal that is heard is begun. -/
theorem begun_hear (signal : Signal) : (h.hear signal).begun = h.begun ++ [signal] := by
  simp [hear, begun]

/-- A cut takes back no signal that the handler has begun to deal with. -/
theorem begun_cut (intake : Intake) : (h.cut intake).begun = h.begun := by
  unfold cut
  split
  · apply List.ext_getElem?
    intro i
    simp only [begun, List.getElem?_map, List.getElem?_modify]
    split <;> cases h.hearings[i]? <;> rfl
  · rfl

/-- No rows need be delivered. -/
theorem deliver_nil : h.deliver [] = h := by simp [deliver]

/-- A row waits to be stored: the payload that was decoded last has brought it, and since then the
statement was at most abandoned. -/
def Pauses (row : Row) : Prop :=
  ∃ (before : List Hearing) (signal : Signal) (reasons : List ClientError),
    h.hearings = before ++ ⟨signal, false⟩ ::
      reasons.map (fun reason => ⟨.abandoned reason, false⟩) ∧
    h.last = before.length ∧ Signal.nextRow? (Hearing.completed before) signal = some row

variable {h}

/-- Being abandoned lets a row wait on. -/
theorem Pauses.hear_abandoned {row : Row} (hpauses : h.Pauses row) (reason : ClientError) :
    (h.hear (.abandoned reason)).Pauses row := by
  obtain ⟨before, signal, reasons, hhearings, hlast, hrow⟩ := hpauses
  exact ⟨before, signal, reasons ++ [reason], by simp [hear, hhearings], hlast, hrow⟩

/-- What was processed before and after the signal that brought a row. -/
theorem Pauses.exists_processed {row : Row} (hpauses : h.Pauses row) :
    ∃ (before : List Signal) (signal : Signal) (reasons : List ClientError),
      Signal.nextRow? before signal = some row ∧
      h.processed = before ++ signal :: reasons.map Signal.abandoned ∧
      (h.cut (.storing row)).processed = before ++ reasons.map Signal.abandoned := by
  obtain ⟨before, signal, reasons, hhearings, hlast, hrow⟩ := hpauses
  refine ⟨Hearing.completed before, signal, reasons, hrow, ?_, ?_⟩
  · rw [processed, hhearings, Hearing.completed_append, Hearing.completed_cons,
      Hearing.completed_abandoned]
    rfl
  · have hmarked (later : List Hearing) :
        (before ++ ⟨signal, false⟩ :: later).modify before.length
          (fun hearing => { hearing with isCut := true }) = before ++ ⟨signal, true⟩ :: later := by
      rw [List.modify_eq_take_cons_drop (by simp)]
      simp
    rw [processed, cut, hhearings, hlast, hmarked, Hearing.completed_append,
      Hearing.completed_cons, Hearing.completed_abandoned]
    rfl

end StatementHistory

namespace StatementSession

/-- The history of a statement accounts for its state. -/
structure Tracks (s : StatementSession) (h : StatementHistory) : Prop where
  /-- The channel is as the signals that were processed leave it. -/
  reflects : s.channel.Reflects h.processed
  /-- The row that the handler has is the last one of the history. -/
  pauses : ∀ row, s.intake = .storing row → h.Pauses row
  /-- The rows that were delivered, those in the buffer and that of the handler are all that were
  accepted. -/
  rows : s.channel.isDropped = false →
    h.delivered ++ s.channel.rows ++ s.intake.rows = Signal.accepted h.processed
  /-- A handler that was let go of has nothing to do. -/
  idle : s.isAttached = false → s.intake = .idle ∧ s.queue = []

variable {s s' : StatementSession} {h : StatementHistory}

/-- The side of the handler is made up of its parts. -/
theorem side_eq_iff {intake : Intake} {queue : List (List UInt8)} {attached : Bool} :
    s.side = (intake, queue, attached) ↔
      s.intake = intake ∧ s.queue = queue ∧ s.isAttached = attached := by
  simp [side]

namespace Tracks

/-- A handler that has something in its hands is still there. -/
theorem attached (hs : s.Tracks h) (hbusy : s.intake ≠ .idle) : s.isAttached = true := by
  by_contra hdetached
  exact hbusy (hs.idle (by simpa using hdetached)).1

/-- Whatever leaves the channel and the handler alone is accounted for. -/
theorem of_fields (hs : s.Tracks h) (hchannel : s'.channel = s.channel)
    (hside : s'.side = s.side) : s'.Tracks h := by
  obtain ⟨hintake, hqueue, hattached⟩ := side_eq_iff.mp hside
  refine ⟨hchannel ▸ hs.reflects, hintake ▸ hs.pauses, ?_, ?_⟩
  · rw [hchannel, hintake]
    exact hs.rows
  · rw [hattached, hintake, hqueue]
    exact hs.idle

/-- The empty history is that of a fresh session. -/
theorem fresh (id : UInt32) (capacity : Nat) (bound : Duration) :
    (StatementSession.fresh id capacity bound).Tracks .empty where
  reflects := Channel.reflects_fresh id capacity bound
  pauses := by simp [StatementSession.fresh]
  rows := fun _ => rfl
  idle := fun _ => ⟨rfl, rfl⟩

/-! ### The handler's side -/

/-- Being abandoned is heard. -/
theorem finish (hs : s.Tracks h) (reason : ClientError)
    (hchannel : s'.channel = s.channel.finish (some reason)) (hside : s'.side = s.side) :
    s'.Tracks (h.hear (.abandoned reason)) := by
  obtain ⟨hintake, hqueue, hattached⟩ := side_eq_iff.mp hside
  refine ⟨?_, fun row hrow => (hs.pauses row (hintake ▸ hrow)).hear_abandoned reason, ?_, ?_⟩
  · rw [hchannel, h.processed_hear]
    exact hs.reflects.finish (.abandoned reason) rfl
  · rw [hchannel, hintake, h.processed_hear, Channel.finish_rows, Channel.finish_isDropped]
    exact fun hkept =>
      (hs.rows hkept).trans (Signal.accepted_append_abandoned h.processed [reason]).symm
  · rw [hattached, hintake, hqueue]
    exact hs.idle

/-- A decoded payload is heard; a row of it waits to be stored. -/
theorem decode (hs : s.Tracks h) {payload : List UInt8} (hdecoding : s.intake = .decoding payload)
    (hchannel : s'.channel = (s.channel.receive payload).1)
    (hside : s'.side =
      ((s.channel.receive payload).2.elim .idle .storing, s.queue, s.isAttached)) :
    s'.Tracks (h.decode payload) := by
  obtain ⟨hintake, -, hattached⟩ := side_eq_iff.mp hside
  obtain ⟨hreflects, hrow⟩ := hs.reflects.hear (.ofPayload payload)
  rw [Channel.receive_eq] at hchannel hintake
  have hprocessed : (h.decode payload).processed = h.processed ++ [.ofPayload payload] :=
    h.processed_hear (.ofPayload payload)
  have hthere : s'.isAttached = true := hattached.trans (hs.attached (by simp [hdecoding]))
  refine ⟨by rw [hchannel, hprocessed]; exact hreflects, ?_, ?_, by simp [hthere]⟩
  · intro row hstoring
    rw [hintake, hrow] at hstoring
    refine ⟨h.hearings, .ofPayload payload, [], rfl, rfl, ?_⟩
    cases hnext : Signal.nextRow? h.processed (.ofPayload payload) with
    | none => simp [hnext] at hstoring
    | some next =>
      obtain rfl : next = row := by simpa [hnext] using hstoring
      exact hnext
  · intro hkept
    rw [hchannel, Channel.hear_isDropped] at hkept
    have hbefore : h.delivered ++ s.channel.rows = Signal.accepted h.processed := by
      simpa [hdecoding, Intake.rows] using hs.rows hkept
    have hhand : s'.intake.rows = (Signal.nextRow? h.processed (.ofPayload payload)).toList := by
      rw [hintake, hrow]
      cases Signal.nextRow? h.processed (.ofPayload payload) <;> rfl
    rw [hprocessed, Signal.accepted_append_singleton, hhand, hchannel, Channel.hear_rows]
    exact congrArg (· ++ _) hbefore

/-- A row that waits is stored, or waits on. -/
theorem store (hs : s.Tracks h) {row : Row} (hstoring : s.intake = .storing row)
    (hchannel : s'.channel = (s.channel.store row).1)
    (hside : s'.side =
      (if (s.channel.store row).2 then .idle else .storing row, s.queue, s.isAttached)) :
    s'.Tracks h := by
  obtain ⟨hintake, -, hattached⟩ := side_eq_iff.mp hside
  have hthere : s'.isAttached = true := hattached.trans (hs.attached (by simp [hstoring]))
  refine ⟨?_, ?_, ?_, by simp [hthere]⟩
  · rw [hchannel]
    exact (Channel.store_answer s.channel row).trans hs.reflects
  · intro row' hrow'
    rw [hintake] at hrow'
    split at hrow'
    · simp at hrow'
    · exact hs.pauses row' (hstoring.trans hrow')
  · intro hkept
    rw [hchannel, Channel.store_isDropped] at hkept
    have hbefore := hs.rows hkept
    rw [hstoring, Intake.rows] at hbefore
    rw [hchannel, hintake, Channel.store_rows hkept]
    split
    · simpa [Intake.rows] using hbefore
    · simpa [Intake.rows] using hbefore

/-- Cutting off the handler takes the signal back whose row was not stored. -/
theorem cut (hs : s.Tracks h) (hchannel : s'.channel = s.channel.cutOff)
    (hintake : s'.intake = .idle) (hqueue : s'.isAttached = false → s'.queue = []) :
    s'.Tracks (h.cut s.intake) := by
  constructor
  · rw [hchannel, Channel.Reflects, Channel.cutOff_answer]
    cases hhand : s.intake with
    | idle => exact hs.reflects
    | decoding payload => exact hs.reflects
    | storing row =>
      obtain ⟨before, signal, reasons, hnext, hall, hcut⟩ := (hs.pauses row hhand).exists_processed
      obtain ⟨-, hends, hheader⟩ := Signal.of_nextRow? hnext
      rw [hcut, ← Signal.answerOf_without signal hends hheader, ← hall]
      exact hs.reflects
  · simp [hintake]
  · intro hkept
    rw [hchannel, Channel.cutOff_isDropped] at hkept
    have hbefore := hs.rows hkept
    rw [hchannel, hintake, Channel.cutOff_rows, Intake.rows, List.append_nil]
    cases hhand : s.intake with
    | idle => simpa [hhand, Intake.rows, StatementHistory.cut] using hbefore
    | decoding payload => simpa [hhand, Intake.rows, StatementHistory.cut] using hbefore
    | storing row =>
      obtain ⟨before, signal, reasons, hnext, hall, hcut⟩ := (hs.pauses row hhand).exists_processed
      have hsplit : before ++ signal :: reasons.map Signal.abandoned =
          (before ++ [signal]) ++ reasons.map Signal.abandoned := by simp
      rw [hhand, hall, hsplit, Signal.accepted_append_abandoned, Signal.accepted_append_singleton,
        hnext] at hbefore
      rw [hcut, Signal.accepted_append_abandoned]
      exact List.append_cancel_right hbefore
  · intro hdetached
    exact ⟨hintake, hqueue hdetached⟩

/-! ### The caller's side -/

/-- A dropped response has nothing to account for. -/
theorem drop (hs : s.Tracks h) (hchannel : s'.channel = s.channel.drop)
    (hside : s'.side = s.side) : s'.Tracks h := by
  have hdropped : ({ s with channel := s.channel.drop } : StatementSession).Tracks h :=
    ⟨(Channel.drop_answer s.channel).trans hs.reflects, hs.pauses, by simp [Channel.drop], hs.idle⟩
  exact hdropped.of_fields hchannel hside

/-- A row that is taken goes over to the caller. -/
theorem take (hs : s.Tracks h) {row : Row} {rows : List Row}
    (hrows : s.channel.rows = row :: rows)
    (hchannel : s'.channel = { s.channel with rows := rows }.release)
    (hside : s'.side = s.side) : s'.Tracks (h.deliver [row]) := by
  have htaken : ({ s with channel := { s.channel with rows := rows }.release } :
      StatementSession).Tracks (h.deliver [row]) := by
    refine ⟨?_, hs.pauses, ?_, hs.idle⟩
    · exact (Channel.release_answer _).trans hs.reflects
    · intro hkept
      have hbefore := hs.rows (by simpa using hkept)
      rw [hrows] at hbefore
      simpa [StatementHistory.deliver, StatementHistory.processed] using hbefore
  exact htaken.of_fields hchannel hside

/-- Taking a row without waiting is accounted for. -/
theorem next (hs : s.Tracks h) (hchannel : s'.channel = s.channel.take.2)
    (hside : s'.side = s.side) :
    s'.Tracks (h.deliver (ResponseAnswer.row s.channel.take.1).rows) := by
  rcases s.channel.take_eq with ⟨reason, -, htake⟩ | ⟨-, -, htake⟩ | ⟨row, rows, -, hrows, htake⟩
  · rw [htake] at hchannel ⊢
    simpa only [ResponseAnswer.rows, h.deliver_nil] using hs.of_fields hchannel hside
  · rw [htake] at hchannel ⊢
    simpa only [ResponseAnswer.rows, h.deliver_nil] using hs.of_fields hchannel hside
  · rw [htake] at hchannel ⊢
    exact hs.take hrows hchannel hside

/-- Whatever a call takes in its turn goes over to the caller. -/
theorem turn_call (hs : s.Tracks h) (call : PullCall)
    (hchannel : s'.channel = (call.turn s.now s.channel).2) (hside : s'.side = s.side) :
    s'.Tracks (h.deliver (call.gained s.now s.channel)) := by
  rcases call.turn_cases s.now s.channel with hpasses | ⟨htakes, hfailure, row, rows, hrows⟩
  · rw [PullCall.gained_of_passes hpasses, h.deliver_nil]
    exact hs.of_fields (hchannel.trans hpasses.1) hside
  · rw [PullCall.gained_of_takes htakes s.now hfailure hrows]
    rw [PullCall.turn_takes htakes s.now hfailure hrows] at hchannel
    exact hs.take hrows hchannel hside

/-- The caller's turn is accounted for. -/
theorem turn_caller (hs : s.Tracks h) (hchannel : s'.channel = s.channelAfter (.turn .caller))
    (hside : s'.side = s.side) : s'.Tracks (s.note h (.turn .caller)) := by
  unfold channelAfter at hchannel
  unfold note
  cases hcall : s.call with
  | none =>
    rw [hcall] at hchannel
    exact hs.of_fields hchannel hside
  | some running =>
    obtain ⟨label, call⟩ := running
    have hturn : ({ s with channel := (call.turn s.now s.channel).2 } : StatementSession).Tracks
        (h.deliver (call.gained s.now s.channel)) := hs.turn_call call rfl rfl
    rw [hcall] at hchannel
    dsimp only at hchannel ⊢
    split at hchannel
    · rename_i result c heq
      rw [heq] at hturn
      split at hchannel
      · exact hturn.drop hchannel hside
      · exact hturn.of_fields hchannel hside
    · rename_i progress c _ heq
      rw [heq] at hturn
      exact hturn.of_fields hchannel hside

/-- The handler's turn is accounted for. -/
theorem turn_handler (hs : s.Tracks h) (hchannel : s'.channel = s.channelAfter (.turn .handler))
    (hside : s'.side = s.sideAfter (.turn .handler)) :
    s'.Tracks (s.note h (.turn .handler)) := by
  unfold channelAfter at hchannel
  unfold sideAfter at hside
  unfold note
  cases hhand : s.intake with
  | idle =>
    rw [hhand] at hchannel hside
    cases hqueue : s.queue with
    | nil =>
      rw [hqueue] at hside
      exact hs.of_fields hchannel hside
    | cons payload queue =>
      rw [hqueue] at hside
      have hthere : s.isAttached = true := by
        by_contra hdetached
        simpa [hqueue] using (hs.idle (by simpa using hdetached)).2
      have htaken : ({ s with queue := queue, intake := .decoding payload } :
          StatementSession).Tracks h := by
        refine ⟨hs.reflects, by simp, ?_, by simp [hthere]⟩
        simpa [hhand, Intake.rows] using hs.rows
      exact htaken.of_fields hchannel hside
  | decoding payload =>
    rw [hhand] at hchannel hside
    exact hs.decode hhand hchannel hside
  | storing row =>
    rw [hhand] at hchannel hside
    exact hs.store hhand hchannel hside

/-- A step on the response is accounted for. -/
theorem perform (hs : s.Tracks h) (label : Nat) (step : ResponseStep)
    (hchannel : s'.channel = s.channelAfter (.perform label step)) (hside : s'.side = s.side) :
    s'.Tracks (s.note h (.perform label step)) := by
  have hnothing : s.Tracks (h.deliver []) := h.deliver_nil.symm ▸ hs
  dsimp only [note, channelAfter] at hchannel ⊢
  unfold StatementSession.perform
  cases hholder : s.holder with
  | call =>
    rw [hholder] at hchannel
    exact hnothing.of_fields hchannel hside
  | gone =>
    rw [hholder] at hchannel
    exact hnothing.of_fields hchannel hside
  | nobody =>
    rw [hholder] at hchannel
    cases step with
    | take => exact hs.next hchannel hside
    | drop => exact hnothing.drop hchannel hside
    | pull pull bound => exact hnothing.of_fields hchannel hside
    | readId => exact hnothing.of_fields hchannel hside
    | describe => exact hnothing.of_fields hchannel hside

/-- Every action is accounted for. -/
theorem act (hs : s.Tracks h) (action : Action) : (s.act action).Tracks (s.note h action) := by
  obtain ⟨hchannel, hside⟩ := s.act_fields action
  cases action with
  | feed payload =>
    dsimp only [note, sideAfter] at hside ⊢
    split at hside
    · rename_i hattached
      have hfed : ({ s with queue := s.queue ++ [payload] } : StatementSession).Tracks h :=
        ⟨hs.reflects, hs.pauses, hs.rows, by simp [hattached]⟩
      exact hfed.of_fields hchannel (hside.trans (by rw [side, hattached]))
    · exact hs.of_fields hchannel hside
  | abandon reason =>
    dsimp only [note, channelAfter] at hchannel ⊢
    split at hchannel
    · rename_i hattached
      rw [if_pos hattached]
      exact hs.finish reason hchannel hside
    · rename_i hattached
      rw [if_neg hattached]
      exact hs.of_fields hchannel hside
  | cutOff =>
    dsimp only [note, channelAfter, sideAfter] at hchannel hside ⊢
    obtain ⟨hintake, hqueue, hattached⟩ := side_eq_iff.mp hside
    cases hhand : s.intake with
    | idle =>
      rw [hhand] at hchannel
      exact hs.of_fields hchannel (by rw [hside, side, hhand])
    | decoding payload =>
      rw [hhand] at hchannel
      rw [← hhand]
      apply hs.cut hchannel hintake
      intro hdetached
      exact hqueue.trans (hs.idle (hattached ▸ hdetached)).2
    | storing row =>
      rw [hhand] at hchannel
      rw [← hhand]
      apply hs.cut hchannel hintake
      intro hdetached
      exact hqueue.trans (hs.idle (hattached ▸ hdetached)).2
  | dropHandler =>
    dsimp only [note, channelAfter, sideAfter] at hchannel hside ⊢
    split at hchannel
    · rename_i hattached
      rw [if_pos hattached] at hside ⊢
      have hcut : ({ s with
          channel := s.channel.cutOff
          queue := []
          intake := .idle
          isAttached := false } : StatementSession).Tracks (h.cut s.intake) :=
        hs.cut rfl rfl fun _ => rfl
      exact hcut.finish .connectionClosed hchannel hside
    · rename_i hattached
      rw [if_neg hattached] at hside ⊢
      exact hs.of_fields hchannel hside
  | perform label step => exact hs.perform label step hchannel hside
  | cancel label =>
    dsimp only [note, channelAfter] at hchannel ⊢
    split at hchannel
    · exact hs.drop hchannel hside
    · exact hs.of_fields hchannel hside
  | withdraw => exact hs.of_fields hchannel hside
  | pass gap => exact hs.of_fields hchannel hside
  | turn who =>
    cases who with
    | handler => exact hs.turn_handler hchannel hside
    | caller => exact hs.turn_caller hchannel hside

end Tracks

end StatementSession

end BeeProtocol
