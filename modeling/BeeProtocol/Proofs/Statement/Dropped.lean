import BeeProtocol.Proofs.Statement.Drains
import BeeProtocol.Proofs.Statement.Filtering

/-!
# Dropped responses

Once the response of a statement is dropped, nobody takes a row from it and none is added to its
buffer. Its handler discards the rows that it decodes, also one that waited for a slot, so that it
is never paused again, and an end still ends the statement.
-/

namespace BeeProtocol

/-- A row for a dropped response is dealt with at once, and the buffer stays as it is. -/
theorem Channel.store_of_isDropped {c : Channel} (h : c.isDropped = true) (row : Row) :
    (c.store row).2 = true ∧ (c.store row).1.rows = c.rows := by
  unfold store
  rw [h]
  cases c.slot <;> exact ⟨rfl, rfl⟩

/-- A payload that ends a statement: an abort, an error, or one that cannot be decoded. -/
def StatementResponse.Ends (payload : List UInt8) : Prop :=
  (∃ reason, Message.decode .statementResponse payload = .error reason) ∨
    ∃ response, Message.decode .statementResponse payload = .ok (.statementResponse response) ∧
      (response.event = .abort ∨ ∃ reason, response.event = .error reason)

/-- A payload that ends a statement ends its channel and leaves no row. -/
theorem Channel.receive_of_ends {payload : List UInt8} (h : StatementResponse.Ends payload)
    (c : Channel) : (c.receive payload).1.isDone = true ∧ (c.receive payload).2 = none := by
  unfold receive
  rcases h with ⟨reason, hdecode⟩ | ⟨response, hdecode, hevent | ⟨reason, hevent⟩⟩ <;> rw [hdecode]
  · exact ⟨c.finish_isDone _, rfl⟩
  · dsimp only
    rw [hevent]
    exact ⟨c.finish_isDone _, rfl⟩
  · dsimp only
    rw [hevent]
    exact ⟨c.finish_isDone _, rfl⟩

namespace StatementSession

variable {s : StatementSession}

/-! ### Nobody has a dropped response -/

/-- No call has the response, and none can be started on it. -/
structure IsOff (s : StatementSession) : Prop where
  /-- No call is under way. -/
  call : s.call = none
  /-- The response is not free. -/
  holder : s.holder ≠ .nobody

/-- Others neither drop a response nor take it up again. -/
theorem isDropped_of_others {action : Action} (hothers : action.isOfOthers = true)
    (s : StatementSession) : (s.act action).channel.isDropped = s.channel.isDropped := by
  rw [(s.act_fields action).1]
  cases action with
  | abandon reason =>
    dsimp only [channelAfter]
    split <;> simp
  | cutOff =>
    dsimp only [channelAfter]
    split <;> simp
  | dropHandler =>
    dsimp only [channelAfter, Channel.letGo]
    split <;> simp
  | turn who =>
    cases who with
    | handler =>
      dsimp only [channelAfter]
      split <;> simp [Channel.receive_eq]
    | caller => cases hothers
  | perform label step => cases hothers
  | cancel label => cases hothers
  | withdraw => cases hothers
  | _ => rfl

/-- A response that nobody has was not dropped. -/
theorem not_dropped_of_free (hoff : s.channel.isDropped = true → s.IsOff)
    (hfree : s.holder = .nobody ∨ s.call ≠ none) : s.channel.isDropped = false := by
  cases hdropped : s.channel.isDropped with
  | false => rfl
  | true =>
    obtain ⟨hcall, hholder⟩ := hoff hdropped
    rcases hfree with hfree | hcalled
    · exact absurd hfree hholder
    · exact absurd hcall hcalled

/-- A response that its owner drops is off. -/
theorem isOff_perform (hs : s.InUse) (hoff : s.channel.isDropped = true → s.IsOff) (label : Nat)
    (step : ResponseStep) (hdropped : (s.perform label step).2.channel.isDropped = true) :
    (s.perform label step).2.IsOff := by
  rw [(s.perform_fields label step).1] at hdropped
  unfold channelAfter at hdropped
  dsimp only at hdropped
  unfold perform
  cases hholder : s.holder with
  | call =>
    rw [hholder] at hdropped
    exact hoff hdropped
  | gone =>
    rw [hholder] at hdropped
    exact hoff hdropped
  | nobody =>
    have hkept := not_dropped_of_free hoff (.inl hholder)
    rw [hholder] at hdropped
    cases step with
    | drop =>
      obtain ⟨ready, hset⟩ := s.setChannel_eq s.channel.drop
      dsimp only
      unfold dropResponse
      rw [hset]
      refine ⟨?_, by simp⟩
      cases hcall : s.call with
      | none => rfl
      | some running => exact absurd hholder (hs.holder running.1 running.2 hcall)
    | take =>
      rw [Channel.take_isDropped, hkept] at hdropped
      cases hdropped
    | pull pull bound =>
      rw [hkept] at hdropped
      cases hdropped
    | readId =>
      rw [hkept] at hdropped
      cases hdropped
    | describe =>
      rw [hkept] at hdropped
      cases hdropped

/-- A response that goes with a cancelled call is off. -/
theorem isOff_cancel (hs : s.InUse) (hoff : s.channel.isDropped = true → s.IsOff) (label : Nat)
    (hdropped : ((s.cancel? label).getD s).channel.isDropped = true) :
    ((s.cancel? label).getD s).IsOff := by
  unfold cancel? at hdropped ⊢
  split
  · rename_i running call hcall
    split
    · obtain ⟨ready, hset⟩ := s.setChannel_eq s.channel.drop
      dsimp only [Option.getD]
      rw [hset]
      exact ⟨rfl, hs.holder running call hcall⟩
    · have hkept := not_dropped_of_free hoff (.inr (by simp [hcall]))
      rename_i hother
      rw [hcall] at hdropped
      dsimp only at hdropped
      rw [if_neg hother, Option.getD_none, hkept] at hdropped
      cases hdropped
  · rename_i hcall
    rw [hcall] at hdropped
    exact hoff hdropped

/-- A response that is dropped at the end of a call is off. -/
theorem isOff_callerTurn (hs : s.InUse) (hoff : s.channel.isDropped = true → s.IsOff)
    (hdropped : s.callerTurn.1.channel.isDropped = true) : s.callerTurn.1.IsOff := by
  cases hcall : s.call with
  | none =>
    have hsame : s.callerTurn.1 = s := by
      unfold callerTurn
      rw [hcall]
    rw [hsame] at hdropped ⊢
    exact hoff hdropped
  | some running =>
    obtain ⟨label, call⟩ := running
    have hkept := not_dropped_of_free hoff (.inr (by simp [hcall]))
    have hturn := call.turn_isDropped s.now s.channel
    obtain ⟨ready, hset⟩ := s.setChannel_eq (call.turn s.now s.channel).2
    rw [callerTurn_eq_conclude hcall] at hdropped ⊢
    unfold conclude at hdropped ⊢
    dsimp only at hdropped ⊢
    rw [hset] at hdropped ⊢
    cases hprogress : (call.turn s.now s.channel).1 with
    | again next =>
      rw [hprogress] at hdropped
      dsimp only at hdropped
      rw [hturn, hkept] at hdropped
      cases hdropped
    | asleep =>
      rw [hprogress] at hdropped
      dsimp only at hdropped
      rw [hturn, hkept] at hdropped
      cases hdropped
    | finished result =>
      rw [hprogress] at hdropped
      unfold finish at hdropped ⊢
      dsimp only at hdropped ⊢
      split
      · obtain ⟨ready', hset'⟩ := setChannel_eq
          { s with
            channel := (call.turn s.now s.channel).2
            ready := ready
            call := none
            finished := s.finished ++ [(label, result)] }
          (call.turn s.now s.channel).2.drop
        rw [hset']
        exact ⟨rfl, hs.holder label call hcall⟩
      · rename_i hlent
        rw [if_neg hlent] at hdropped
        dsimp only at hdropped
        rw [hturn, hkept] at hdropped
        cases hdropped

/-- Nobody has a dropped response: whoever drops it had it, and is rid of it. -/
theorem isOff_act (hs : s.InUse) (hoff : s.channel.isDropped = true → s.IsOff) (action : Action)
    (hdropped : (s.act action).channel.isDropped = true) : (s.act action).IsOff := by
  cases hothers : action.isOfOthers with
  | true =>
    have hdesk := desk_of_others hothers s
    rw [isDropped_of_others hothers] at hdropped
    obtain ⟨hcall, hholder⟩ := hoff hdropped
    exact ⟨(congrArg Desk.call hdesk).trans hcall, (congrArg Desk.holder hdesk).trans_ne hholder⟩
  | false =>
    cases action with
    | perform label step => exact isOff_perform hs hoff label step hdropped
    | cancel label => exact isOff_cancel hs hoff label hdropped
    | withdraw =>
      dsimp only [act] at hdropped ⊢
      unfold withdraw at hdropped ⊢
      split
      · rename_i hcall
        have hkept := not_dropped_of_free hoff (.inr (by simp [hcall]))
        rw [hcall] at hdropped
        dsimp only at hdropped
        split at hdropped <;> rw [hkept] at hdropped <;> cases hdropped
      · rename_i hcall
        rw [hcall] at hdropped
        exact hoff hdropped
    | turn who =>
      cases who with
      | handler => cases hothers
      | caller =>
        have hturn := isOff_callerTurn (s := { s with ready := s.ready.erase .caller })
          ⟨hs.holder, hs.deadline⟩ (fun hbefore => ⟨(hoff hbefore).call, (hoff hbefore).holder⟩)
        dsimp only [act] at hdropped ⊢
        unfold turnOf at hdropped ⊢
        dsimp only at hdropped ⊢
        split
        · rename_i hgoesOn
          rw [if_pos hgoesOn] at hdropped
          exact ⟨(hturn hdropped).call, (hturn hdropped).holder⟩
        · rename_i hgoesOn
          rw [if_neg hgoesOn] at hdropped
          exact hturn hdropped
    | _ => cases hothers

/-- No action changes the buffer of a dropped response. -/
theorem rows_act (hdropped : s.channel.isDropped = true) (hoff : s.IsOff) (action : Action) :
    (s.act action).channel.rows = s.channel.rows := by
  rw [(s.act_fields action).1]
  cases action with
  | abandon reason =>
    dsimp only [channelAfter]
    split <;> simp
  | cutOff =>
    dsimp only [channelAfter]
    split <;> simp
  | dropHandler =>
    dsimp only [channelAfter, Channel.letGo]
    split <;> simp
  | perform label step =>
    dsimp only [channelAfter]
    split
    · rename_i hfree
      exact absurd hfree hoff.holder
    · rfl
    · rfl
  | cancel label =>
    dsimp only [channelAfter]
    split <;> rfl
  | turn who =>
    cases who with
    | handler =>
      dsimp only [channelAfter]
      split
      · rfl
      · simp [Channel.receive_eq]
      · exact (Channel.store_of_isDropped hdropped _).2
    | caller =>
      dsimp only [channelAfter]
      rw [hoff.call]
  | _ => rfl

/-! ### The handler of a dropped response -/

/-- What the handler has to do and what it has done. -/
structure Workload where
  /-- What the handler has in its hands. -/
  intake : Intake
  /-- The payloads that it has still to take. -/
  queue : List (List UInt8)
  /-- How many it has dealt with. -/
  handled : Nat

namespace Workload

/-- The payloads that are not handled completely. -/
def unhandled (w : Workload) : Nat :=
  w.queue.length +
    match w.intake with
    | .idle => 0
    | _ => 1

/-- A bound for the turns that the handler needs for these payloads if nothing holds it up. -/
def backlog (w : Workload) : Nat :=
  3 * w.queue.length +
    match w.intake with
    | .idle => 0
    | .decoding _ => 2
    | .storing _ => 1

/-- What a turn of a handler that nothing holds up makes of its work. -/
inductive Advances : Workload → Workload → Prop
  | rest (handled : Nat) : Advances ⟨.idle, [], handled⟩ ⟨.idle, [], handled⟩
  | begin (payload : List UInt8) (queue : List (List UInt8)) (handled : Nat) :
    Advances ⟨.idle, payload :: queue, handled⟩ ⟨.decoding payload, queue, handled⟩
  /-- The payload leaves a row to be stored. -/
  | keepRow (payload : List UInt8) (row : Row) (queue : List (List UInt8)) (handled : Nat) :
    Advances ⟨.decoding payload, queue, handled⟩ ⟨.storing row, queue, handled⟩
  | finish {intake : Intake} (hbusy : intake ≠ .idle) (queue : List (List UInt8))
    (handled : Nat) : Advances ⟨intake, queue, handled⟩ ⟨.idle, queue, handled + 1⟩

variable {w w' : Workload}

/-- Payloads are handled one after the other, and none is lost. -/
theorem Advances.handled_add_unhandled (h : w.Advances w') :
    w'.handled + w'.unhandled = w.handled + w.unhandled := by
  unfold unhandled
  cases h with
  | rest handled => rfl
  | begin payload queue handled => rfl
  | keepRow payload row queue handled => rfl
  | @finish intake hbusy queue handled =>
    cases intake with
    | idle => exact absurd rfl hbusy
    | decoding payload | storing row =>
      dsimp only
      omega

/-- A handler that advances has less to do. -/
theorem Advances.backlog_le (h : w.Advances w') : w'.backlog ≤ w.backlog - 1 := by
  unfold backlog
  cases h with
  | rest handled => exact Nat.le_refl _
  | begin payload queue handled =>
    simp only [List.length_cons]
    omega
  | keepRow payload row queue handled =>
    dsimp only
    omega
  | @finish intake hbusy queue handled =>
    cases intake with
    | idle => exact absurd rfl hbusy
    | decoding payload | storing row =>
      dsimp only
      omega

end Workload

/-- The workload of a session. -/
def workload (s : StatementSession) : Workload := ⟨s.intake, s.queue, s.handled⟩

/-- The handler of a dropped response advances in every turn. -/
theorem advances_handlerTurn (hdropped : s.channel.isDropped = true) :
    s.workload.Advances s.handlerTurn.1.workload := by
  unfold handlerTurn workload
  cases hintake : s.intake with
  | idle =>
    cases hqueue : s.queue with
    | nil =>
      dsimp only
      rw [hintake, hqueue]
      exact .rest s.handled
    | cons payload queue => exact .begin payload queue s.handled
  | decoding payload =>
    dsimp only
    rcases s.channel.receive payload with ⟨c, row⟩
    obtain ⟨ready, hset⟩ := s.setChannel_eq c
    cases row with
    | none =>
      dsimp only
      rw [hset]
      exact .finish (by simp) s.queue s.handled
    | some row =>
      dsimp only
      rw [hset]
      exact .keepRow payload row s.queue s.handled
  | storing row =>
    have hstored := (Channel.store_of_isDropped hdropped row).1
    dsimp only
    rcases hstore : s.channel.store row with ⟨c, stored⟩
    rw [hstore] at hstored
    obtain ⟨ready, hset⟩ := s.setChannel_eq c
    cases hstored
    dsimp only
    rw [hset]
    exact .finish (by simp) s.queue s.handled

/-- The handler of a dropped response is not held up. -/
theorem advances_act (hdropped : s.channel.isDropped = true) :
    s.workload.Advances (s.act (.turn .handler)).workload := by
  have hturn := advances_handlerTurn (s := { s with ready := s.ready.erase .handler }) hdropped
  dsimp only [act]
  unfold turnOf
  dsimp only
  split
  · exact hturn
  · exact hturn

/-- The handler of a dropped response gets through with all that it was fed in as many turns as it
needs without any wait. -/
theorem handles_all (hdropped : s.channel.isDropped = true) {turns : Nat}
    (hturns : s.workload.backlog ≤ turns) :
    ((List.replicate turns (Action.turn .handler)).foldl act s).workload =
      ⟨.idle, [], s.handled + s.workload.unhandled⟩ := by
  induction turns generalizing s with
  | zero =>
    unfold Workload.backlog workload at hturns
    dsimp only at hturns
    have hqueue : s.queue = [] := List.length_eq_zero_iff.mp (by omega)
    cases hintake : s.intake with
    | idle => simp [workload, Workload.unhandled, hintake, hqueue]
    | decoding payload | storing row =>
      rw [hintake] at hturns
      dsimp only at hturns
      omega
  | succ turns ih =>
    have hadvances := advances_act hdropped
    have hle := hadvances.backlog_le
    rw [List.replicate_succ, List.foldl_cons,
      ih (s := s.act (.turn .handler)) (isDropped_act hdropped _) (by omega)]
    exact congrArg (Workload.mk .idle []) hadvances.handled_add_unhandled

/-! ### Whole runs -/

/-- A statement that has ended does not start again. -/
theorem isDone_act (hdone : s.channel.isDone = true) (action : Action) :
    (s.act action).channel.isDone = true := by
  have hsame {c : Channel} (hanswer : c.answer = s.channel.answer) : c.isDone = true :=
    (Channel.isDone_of_answer hanswer).trans hdone
  have hstep := s.channelStep_act action
  generalize (s.act action).channel = c at hstep ⊢
  cases hstep with
  | same => exact hdone
  | finish reason => exact s.channel.finish_isDone _
  | cutOff => exact hsame s.channel.cutOff_answer
  | letGo => exact s.channel.cutOff.finish_isDone _
  | take label hfree => exact hsame s.channel.take_answer
  | drop => exact hdone
  | hear signal => exact Channel.hear_isDone hdone signal
  | store row => exact hsame (s.channel.store_answer row)
  | turn call => exact hsame (s.channel.turn_answer call s.now)
  | close call => exact hsame (s.channel.turn_answer call s.now)

/-- A statement whose response was dropped: nobody can take a row from it, and nothing holds up its
handler. -/
structure PassesBy (s : StatementSession) : Prop where
  /-- The response was dropped. -/
  dropped : s.channel.isDropped = true
  /-- Nobody has it. -/
  off : s.IsOff
  /-- The handler goes on as long as it has anything to do. -/
  awake : s.intake ≠ .idle ∨ s.queue ≠ [] → .handler ∈ s.ready
  /-- A row that was to be stored, perhaps after a wait, is discarded by its next turn. -/
  discards : ∀ row, s.intake = .storing row →
    (s.act (.turn .handler)).workload = ⟨.idle, s.queue, s.handled + 1⟩ ∧
      (s.act (.turn .handler)).channel.rows = s.channel.rows ∧
        (s.act (.turn .handler)).channel.answer = s.channel.answer
  /-- An abort, an error or an undecodable payload ends the statement. -/
  ends : ∀ payload, s.intake = .decoding payload → StatementResponse.Ends payload →
    (s.act (.turn .handler)).workload = ⟨.idle, s.queue, s.handled + 1⟩ ∧
      (s.act (.turn .handler)).channel.isDone = true
  /-- All that it was fed is handled in three turns for each payload at most. -/
  handles : ∀ turns, s.workload.backlog ≤ turns →
    ((List.replicate turns (Action.turn .handler)).foldl act s).workload =
      ⟨.idle, [], s.handled + s.workload.unhandled⟩

/-- What is off holds nobody up. -/
theorem passesBy_of_off (hdropped : s.channel.isDropped = true) (hoff : s.IsOff)
    (halert : s.Alert) : s.PassesBy where
  dropped := hdropped
  off := hoff
  awake hbusy := by
    refine (halert .handler).resolve_right fun hblocked => ?_
    unfold Blocked at hblocked
    cases hintake : s.intake with
    | idle =>
      rw [hintake] at hblocked hbusy
      exact hbusy.elim (fun h => h rfl) (fun h => h hblocked)
    | decoding payload =>
      rw [hintake] at hblocked
      exact hblocked
    | storing row =>
      rw [hintake] at hblocked
      exact absurd hdropped (by simp [hblocked.2])
  discards row hintake := by
    have hadvances := advances_act hdropped
    have hstart : s.workload = ⟨.storing row, s.queue, s.handled⟩ := by rw [workload, hintake]
    refine ⟨?_, rows_act hdropped hoff _, ?_⟩
    · rw [hstart] at hadvances
      generalize (s.act (.turn .handler)).workload = w at hadvances ⊢
      cases hadvances
      rfl
    · rw [(s.act_fields _).1]
      unfold channelAfter
      rw [hintake]
      exact s.channel.store_answer row
  ends payload hintake hends := by
    obtain ⟨hdone, hnone⟩ := s.channel.receive_of_ends hends
    obtain ⟨hchannel, hside⟩ := s.act_fields (.turn .handler)
    have hadvances := advances_act hdropped
    have hstart : s.workload = ⟨.decoding payload, s.queue, s.handled⟩ := by rw [workload, hintake]
    unfold channelAfter at hchannel
    unfold sideAfter at hside
    rw [hintake] at hchannel hside
    dsimp only at hchannel hside
    rw [hnone] at hside
    refine ⟨?_, by rw [hchannel]; exact hdone⟩
    have hidle : (s.act (.turn .handler)).workload.intake = .idle := congrArg Prod.fst hside
    rw [hstart] at hadvances
    generalize (s.act (.turn .handler)).workload = w at hadvances hidle ⊢
    cases hadvances with
    | keepRow row => cases hidle
    | finish hbusy => rfl
  handles turns hturns := handles_all hdropped hturns

section Runs

variable (id : UInt32) (capacity : Nat) (bound : Duration)

/-- In every session a dropped response is off. -/
theorem isOff_sessionOf (actions : List Action)
    (hdropped : (sessionOf id capacity bound actions).channel.isDropped = true) :
    (sessionOf id capacity bound actions).IsOff := by
  have hinvariant : (sessionOf id capacity bound actions).InUse ∧
      ((sessionOf id capacity bound actions).channel.isDropped = true →
        (sessionOf id capacity bound actions).IsOff) :=
    follow_invariant (P := fun s _ => s.InUse ∧ (s.channel.isDropped = true → s.IsOff))
      (fun _ _ action hs => ⟨hs.1.act action, isOff_act hs.1 hs.2 action⟩)
      ⟨.fresh id capacity bound, fun hdropped => by cases hdropped⟩ actions
  exact hinvariant.2 hdropped

/-- Once a response is dropped, in whatever state, nothing that comes later for its statement is
held up, its buffer stays as it is, and an end stays an end. -/
theorem passesBy_sessionOf (actions more : List Action)
    (hdropped : (sessionOf id capacity bound actions).channel.isDropped = true) :
    (sessionOf id capacity bound (actions ++ more)).PassesBy ∧
      (sessionOf id capacity bound (actions ++ more)).channel.rows =
        (sessionOf id capacity bound actions).channel.rows ∧
      ((sessionOf id capacity bound actions).channel.isDone = true →
        (sessionOf id capacity bound (actions ++ more)).channel.isDone = true) := by
  induction more using List.reverseRecOn with
  | nil =>
    rw [List.append_nil]
    exact ⟨passesBy_of_off hdropped (isOff_sessionOf id capacity bound actions hdropped)
      (alert_runOf id capacity bound actions), rfl, fun hdone => hdone⟩
  | append_singleton more action ih =>
    obtain ⟨hpasses, hrows, hdone⟩ := ih
    have hstep : sessionOf id capacity bound (actions ++ (more ++ [action])) =
        (sessionOf id capacity bound (actions ++ more)).act action := by
      rw [← List.append_assoc, sessionOf_append]
    have hdropped' := isDropped_act hpasses.dropped action
    refine ⟨?_, ?_, fun hend => ?_⟩
    · rw [← hstep] at hdropped'
      exact passesBy_of_off hdropped' (isOff_sessionOf id capacity bound _ hdropped')
        (alert_runOf id capacity bound _)
    · rw [hstep, rows_act hpasses.dropped hpasses.off, hrows]
    · rw [hstep]
      exact isDone_act (hdone hend) action

end Runs

end StatementSession

end BeeProtocol
