import BeeProtocol.Proofs.Statement.Delivery

/-!
# Who is woken

A side that was not woken is blocked: a handler has no payload, or a row for which there is no slot,
and the caller's wait is for something that is not decided yet. Every change that could let a side
go on wakes it, so this is kept by all actions.
-/

namespace BeeProtocol

/-! ### Calls that wait on -/

namespace PullCall

variable {call : PullCall} {now : Nat} {c c' : Channel}

/-- A call goes on waiting exactly as long as what it asks for is not known. -/
theorem turn_asleep_iff :
    (call.turn now c).1 = .asleep ↔
      match call.pull with
      | .columns => call.headerKnown? now c = none
      | _ => call.rowKnown? now c = none := by
  have hexhausted : call.exhausted ≠ .asleep := by
    obtain ⟨result, hresult, -⟩ := call.exhausted_eq
    simp [hresult]
  have hfail (reason : ClientError) : call.fail reason ≠ .asleep := by
    obtain ⟨result, hresult, -⟩ := call.fail_eq reason
    simp [hresult]
  have htook (row : Row) : call.took now row ≠ .asleep := by
    unfold took
    split <;> simp
  have htake : (call.takeRow now c).1 ≠ .asleep := by
    unfold takeRow
    split
    · exact htook _
    · exact hfail _
  unfold turn
  cases hpull : call.pull with
  | columns =>
    cases hknown : call.headerKnown? now c with
    | none => simp
    | some known => cases known <;> simp
  | hasNext =>
    cases hknown : call.rowKnown? now c with
    | none => simp
    | some known => cases known <;> simp
  | nextRow | collect taken | stream taken =>
    cases hknown : call.rowKnown? now c with
    | none => simp
    | some known => rcases known with reason | _ | _ <;> simp [hexhausted, hfail, htake]

/-- What is known about the next row without regard to the deadline. -/
theorem rowKnown?_eq_none_iff :
    call.rowKnown? now c = none ↔ c.rowReady? = none ∧ call.isDue now = false := by
  unfold rowKnown?
  cases c.rowReady? <;> simp

/-- A wait for the header goes on while no header is there and time is left. -/
theorem headerKnown?_eq_none_iff :
    call.headerKnown? now c = none ↔ c.headerReady? = none ∧ call.isDue now = false := by
  unfold headerKnown?
  cases c.headerReady? <;> simp

end PullCall

namespace Channel

variable {c c' : Channel}

/-- A row is waited for while there is none, nor a failure, nor an end. -/
theorem rowReady?_eq_none_iff :
    c.rowReady? = none ↔ c.failure = none ∧ c.rows = [] ∧ c.isDone = false := by
  unfold rowReady?
  cases c.failure <;> cases c.rows <;> simp

/-- A header is waited for while there is none, nor a failure, nor an end. -/
theorem headerReady?_eq_none_iff :
    c.headerReady? = none ↔ c.failure = none ∧ c.header = none ∧ c.isDone = false := by
  unfold headerReady?
  cases c.failure <;> cases c.header <;> simp

/-- As long as neither the answer nor a new row comes, nothing is decided. -/
theorem rowReady?_of_same (h : c.rowReady? = none) (hanswer : c'.answer = c.answer)
    (hrows : c'.rows.length ≤ c.rows.length) : c'.rowReady? = none := by
  obtain ⟨hfailure, hempty, hdone⟩ := rowReady?_eq_none_iff.mp h
  simp only [answer, Prod.mk.injEq] at hanswer
  refine rowReady?_eq_none_iff.mpr ⟨hanswer.2.2.trans hfailure, ?_, ?_⟩
  · rw [hempty] at hrows
    exact List.eq_nil_of_length_eq_zero (Nat.le_zero.mp hrows)
  · unfold isDone at hdone ⊢
    rw [hanswer.1]
    exact hdone

/-- Whether the header is there is a matter of what the statement answers. -/
theorem headerReady?_of_same (h : c.headerReady? = none) (hanswer : c'.answer = c.answer) :
    c'.headerReady? = none := by
  obtain ⟨hfailure, hheader, hdone⟩ := headerReady?_eq_none_iff.mp h
  simp only [answer, Prod.mk.injEq] at hanswer
  refine headerReady?_eq_none_iff.mpr
    ⟨hanswer.2.2.trans hfailure, hanswer.2.1.trans hheader, ?_⟩
  unfold isDone at hdone ⊢
  rw [hanswer.1]
  exact hdone

end Channel

/-- A call waits on as long as nothing new is decided and its deadline is not due. -/
theorem PullCall.asleep_of_same {call : PullCall} {now now' : Nat} {c c' : Channel}
    (h : (call.turn now c).1 = .asleep) (hdue : call.isDue now' = false)
    (hanswer : c'.answer = c.answer) (hrows : c'.rows.length ≤ c.rows.length) :
    (call.turn now' c').1 = .asleep := by
  rw [turn_asleep_iff] at h ⊢
  cases hpull : call.pull with
  | columns =>
    rw [hpull] at h
    obtain ⟨hready, -⟩ := headerKnown?_eq_none_iff.mp h
    exact headerKnown?_eq_none_iff.mpr ⟨Channel.headerReady?_of_same hready hanswer, hdue⟩
  | hasNext | nextRow | collect taken | stream taken =>
    rw [hpull] at h
    obtain ⟨hready, -⟩ := rowKnown?_eq_none_iff.mp h
    exact rowKnown?_eq_none_iff.mpr ⟨Channel.rowReady?_of_same hready hanswer hrows, hdue⟩

/-- A call sleeps only before its deadline. -/
theorem PullCall.not_due_of_asleep {call : PullCall} {now : Nat} {c : Channel}
    (h : (call.turn now c).1 = .asleep) : call.isDue now = false := by
  rw [turn_asleep_iff] at h
  cases hpull : call.pull with
  | columns =>
    rw [hpull] at h
    exact (headerKnown?_eq_none_iff.mp h).2
  | hasNext | nextRow | collect taken | stream taken =>
    rw [hpull] at h
    exact (rowKnown?_eq_none_iff.mp h).2

/-- A call that waits on leaves the channel alone. -/
theorem PullCall.turn_asleep {call : PullCall} {now : Nat} {c : Channel}
    (h : (call.turn now c).1 = .asleep) : (call.turn now c).2 = c := by
  rcases call.turn_cases now c with hpasses | ⟨htakes, hfailure, row, rows, hrows⟩
  · exact hpasses.1
  · rw [turn_takes htakes now hfailure hrows] at h
    unfold took at h
    split at h <;> cases h

/-- A call on a statement that is done does not wait. -/
theorem PullCall.not_asleep_of_done {call : PullCall} {now : Nat} {c : Channel} (h : c.isDone) :
    (call.turn now c).1 ≠ .asleep := by
  intro hasleep
  rw [turn_asleep_iff] at hasleep
  cases hpull : call.pull with
  | columns =>
    rw [hpull] at hasleep
    have hready := Channel.headerReady?_eq_none_iff.mp (headerKnown?_eq_none_iff.mp hasleep).1
    simp [h] at hready
  | hasNext | nextRow | collect taken | stream taken =>
    rw [hpull] at hasleep
    have hready := Channel.rowReady?_eq_none_iff.mp (rowKnown?_eq_none_iff.mp hasleep).1
    simp [h] at hready

/-! ### Changes that concern those who wait -/

namespace Channel

variable {c : Channel}

/-- A change ends the wait for a slot by telling the handler, or leaves the wait as it is. -/
def MindsHandler (before after : Channel) : Prop :=
  before.slot = .waiting → before.tellsHandler after ∨
    after.slot = .waiting ∧ after.isDropped = before.isDropped

/-- The answer changes only together with the phase, of which callers are told. -/
def MindsCallers (before after : Channel) : Prop :=
  after.phase = before.phase → after.answer = before.answer

/-- The handler need not be told if the slot and the response are as before. -/
theorem MindsHandler.of_slot {c' : Channel} (hslot : c'.slot = c.slot)
    (hdropped : c'.isDropped = c.isDropped) : c.MindsHandler c' :=
  fun hwaiting => .inr ⟨hslot.trans hwaiting, hdropped⟩

/-- The handler is told when a statement ends while a row waits. -/
theorem mindsHandler_finish (c : Channel) (failure : Option ClientError) :
    c.MindsHandler (c.finish failure) := by
  refine .of_slot ?_ (c.finish_isDropped failure)
  unfold finish
  split <;> rfl

/-- A dropped response ends the wait for a slot. -/
theorem mindsHandler_drop (c : Channel) : c.MindsHandler c.drop := by
  intro hwaiting
  cases hdropped : c.isDropped with
  | true => exact .inr ⟨hwaiting, rfl⟩
  | false => exact .inl (by simp [tellsHandler, drop, hwaiting, hdropped])

/-- A row that is taken ends the wait for a slot. -/
theorem mindsHandler_release (c : Channel) (rows : List Row) :
    c.MindsHandler { c with rows := rows }.release :=
  fun hwaiting => .inl (by simp [tellsHandler, release, hwaiting])

/-- The handler is told when a row is taken while another one waits. -/
theorem mindsHandler_take (c : Channel) : c.MindsHandler c.take.2 := by
  rcases c.take_eq with ⟨reason, -, htake⟩ | ⟨-, -, htake⟩ | ⟨row, rows, -, -, htake⟩
  · rw [htake]
    exact .of_slot rfl rfl
  · rw [htake]
    exact .of_slot rfl rfl
  · rw [htake]
    exact c.mindsHandler_release rows

/-- The handler is told when the turn of a call makes room. -/
theorem mindsHandler_turn (c : Channel) (call : PullCall) (now : Nat) :
    c.MindsHandler (call.turn now c).2 := by
  rcases call.turn_cases now c with hpasses | ⟨htakes, hfailure, row, rows, hrows⟩
  · rw [hpasses.1]
    exact .of_slot rfl rfl
  · rw [PullCall.turn_takes htakes now hfailure hrows]
    exact c.mindsHandler_release rows

/-- Callers need not be told if the statement answers as before. -/
theorem MindsCallers.of_answer {c' : Channel} (h : c'.answer = c.answer) : c.MindsCallers c' :=
  fun _ => h

/-- Callers are told when a statement ends. -/
theorem mindsCallers_finish (c : Channel) (failure : Option ClientError) :
    c.MindsCallers (c.finish failure) := by
  unfold finish
  split
  · exact .of_answer rfl
  · rename_i hgoesOn
    intro hphase
    refine absurd hphase.symm ?_
    simpa [isDone] using hgoesOn

/-- Callers are told when a payload brings news. -/
theorem mindsCallers_receive (c : Channel) (payload : List UInt8) :
    c.MindsCallers (c.receive payload).1 := by
  rw [receive_eq]
  cases Signal.ofPayload payload with
  | decoded event =>
    cases event with
    | columns header =>
      dsimp only [hear, apply, takeHeader]
      split
      · rename_i hawaiting
        intro hphase
        rw [hawaiting] at hphase
        cases hphase
      · exact .of_answer rfl
    | row values => exact .of_answer rfl
    | abort => exact c.mindsCallers_finish _
    | error reason => exact c.mindsCallers_finish _
  | malformed reason => exact c.mindsCallers_finish _
  | abandoned reason => exact c.mindsCallers_finish _

/-- Callers are told when the handler is let go of. -/
theorem mindsCallers_letGo (c : Channel) : c.MindsCallers c.letGo := by
  intro hphase
  have hcut : c.cutOff.phase = c.phase := congrArg (·.1) c.cutOff_answer
  exact (c.cutOff.mindsCallers_finish _ (hphase.trans hcut.symm)).trans c.cutOff_answer

/-- Taking a row leaves what the statement answers. -/
theorem take_answer (c : Channel) : c.take.2.answer = c.answer := by
  rcases c.take_eq with ⟨reason, -, htake⟩ | ⟨-, -, htake⟩ | ⟨row, rows, -, -, htake⟩
  · rw [htake]
  · rw [htake]
  · rw [htake, release_answer]
    rfl

/-- The turn of a call leaves what the statement answers. -/
theorem turn_answer (c : Channel) (call : PullCall) (now : Nat) :
    (call.turn now c).2.answer = c.answer := by
  rcases call.turn_cases now c with hpasses | ⟨htakes, hfailure, row, rows, hrows⟩
  · rw [hpasses.1]
  · rw [PullCall.turn_takes htakes now hfailure hrows, release_answer]
    rfl

/-- A row that is not dealt with waits for a slot of a response that is kept. -/
theorem store_waits {row : Row} (h : (c.store row).2 = false) :
    (c.store row).1.slot = .waiting ∧ (c.store row).1.isDropped = false := by
  unfold store at h ⊢
  cases hdropped : c.isDropped with
  | true => cases hslot : c.slot <;> simp [hdropped, hslot] at h
  | false =>
    cases hslot : c.slot with
    | granted => simp [hdropped, hslot] at h
    | waiting => exact ⟨hslot, hdropped⟩
    | none =>
      by_cases hfull : c.free = 0
      · simp [hfull]
      · simp [hdropped, hslot, hfull] at h

end Channel

namespace StatementSession

variable {s s' : StatementSession}

/-- A side cannot go on: the handler has no payload, or a row that waits for a slot, and the call
waits for something that is not decided. -/
def Blocked (s : StatementSession) : StatementSide → Prop
  | .handler =>
    match s.intake with
    | .idle => s.queue = []
    | .decoding _ => False
    | .storing _ => s.channel.slot = .waiting ∧ s.channel.isDropped = false
  | .caller => ∀ label call, s.call = some (label, call) → (call.turn s.now s.channel).1 = .asleep

/-- A side that was not woken cannot go on. -/
def Alert (s : StatementSession) : Prop := ∀ side, side ∈ s.ready ∨ s.Blocked side

/-! ### Waking -/

/-- Waking somebody lets nobody fall asleep. -/
theorem mem_ready_wake {side : StatementSide} (h : side ∈ s.ready) (who : StatementSide) :
    side ∈ (s.wake who).ready := by
  unfold wake
  split
  · exact h
  · exact List.mem_append_left _ h

/-- Who is woken can go on. -/
theorem mem_ready_wake_self (s : StatementSession) (who : StatementSide) :
    who ∈ (s.wake who).ready := by
  unfold wake
  split
  · rename_i hready
    simpa using hready
  · exact List.mem_append_right _ (List.mem_singleton_self who)

/-- Waking somebody or nobody lets nobody fall asleep. -/
theorem mem_ready_of_wakes {side : StatementSide} (wakes : Bool) (who : StatementSide)
    (h : side ∈ s.ready) : side ∈ (if wakes then s.wake who else s).ready := by
  split
  · exact mem_ready_wake h who
  · exact h

/-- A change of the channel lets nobody fall asleep and wakes whom it concerns. -/
theorem mem_ready_setChannel {side : StatementSide} {c : Channel}
    (h : side ∈ s.ready ∨ side = .caller ∧ s.channel.tellsCallers c ∧ s.call.isSome ∨
      side = .handler ∧ s.channel.tellsHandler c) : side ∈ (s.setChannel c).ready := by
  unfold setChannel
  dsimp only
  rcases h with hside | ⟨rfl, htells, hcall⟩ | ⟨rfl, htells⟩
  · exact mem_ready_of_wakes _ _ (mem_ready_of_wakes _ _ hside)
  · refine mem_ready_of_wakes _ _ ?_
    rw [htells, hcall, Bool.and_true, if_pos rfl]
    exact mem_ready_wake_self _ _
  · rw [if_pos htells]
    exact mem_ready_wake_self _ _

/-- A new state of the channel leaves the call and the time. -/
theorem setChannel_call (s : StatementSession) (c : Channel) :
    (s.setChannel c).call = s.call ∧ (s.setChannel c).now = s.now := by
  obtain ⟨ready, hset⟩ := s.setChannel_eq c
  rw [hset]
  exact ⟨rfl, rfl⟩

/-! ### Staying blocked -/

/-- A handler is blocked as before if its side is the same and a row still waits. -/
theorem Blocked.handler_congr (h : s.Blocked .handler) (hside : s'.side = s.side)
    (hwait : s.channel.slot = .waiting → s.channel.isDropped = false →
      s'.channel.slot = .waiting ∧ s'.channel.isDropped = false) : s'.Blocked .handler := by
  obtain ⟨hintake, hqueue, -⟩ := side_eq_iff.mp hside
  unfold Blocked at h ⊢
  dsimp only at h ⊢
  rw [hintake, hqueue]
  cases hhand : s.intake with
  | idle => simpa [hhand] using h
  | decoding payload => simp [hhand] at h
  | storing row =>
    rw [hhand] at h
    exact hwait h.1 h.2

/-- A call is blocked as before if there is nothing new for it. -/
theorem Blocked.caller_congr (h : s.Blocked .caller) (hcall : s'.call = s.call)
    (hnow : s'.now = s.now) (hanswer : s'.channel.answer = s.channel.answer)
    (hrows : s'.channel.rows.length ≤ s.channel.rows.length) : s'.Blocked .caller := by
  intro label call hrunning
  have hasleep := h label call (hcall.symm.trans hrunning)
  rw [hnow]
  exact PullCall.asleep_of_same hasleep (PullCall.not_due_of_asleep hasleep) hanswer hrows

/-- What only wakes, or changes what no side looks at, keeps a session alert. -/
theorem Alert.of_same (hs : s.Alert) (hready : ∀ side ∈ s.ready, side ∈ s'.ready)
    (hside : s'.side = s.side) (hchannel : s'.channel = s.channel) (hcall : s'.call = s.call)
    (hnow : s'.now = s.now) : s'.Alert := by
  intro side
  refine (hs side).imp (hready side) fun hblocked => ?_
  cases side with
  | handler =>
    refine hblocked.handler_congr hside fun hslot hkept => ?_
    rw [hchannel]
    exact ⟨hslot, hkept⟩
  | caller => exact hblocked.caller_congr hcall hnow (by rw [hchannel]) (by rw [hchannel])

/-- A change of the channel that minds the callers keeps the caller alert. -/
theorem caller_setChannel (h : .caller ∈ s.ready ∨ s.Blocked .caller) {c : Channel}
    (hminds : s.channel.MindsCallers c) :
    .caller ∈ (s.setChannel c).ready ∨ (s.setChannel c).Blocked .caller := by
  obtain ⟨hcall, hnow⟩ := s.setChannel_call c
  rcases h with hready | hblocked
  · exact .inl (mem_ready_setChannel (.inl hready))
  · cases hrunning : s.call with
    | none => exact .inr fun label call hsome => by simp [hcall, hrunning] at hsome
    | some running =>
      by_cases htells : s.channel.tellsCallers c
      · exact .inl (mem_ready_setChannel (.inr (.inl ⟨rfl, htells, by simp [hrunning]⟩)))
      · simp only [Channel.tellsCallers, Bool.or_eq_true, bne_iff_ne, ne_eq, decide_eq_true_eq,
          not_or, Decidable.not_not, Nat.not_lt] at htells
        refine .inr (hblocked.caller_congr hcall hnow ?_ ?_)
        · rw [setChannel_channel]
          exact hminds htells.1.symm
        · rw [setChannel_channel]
          exact htells.2

/-- A change of the channel that minds the handler keeps the handler alert. -/
theorem handler_setChannel (h : .handler ∈ s.ready ∨ s.Blocked .handler) {c : Channel}
    (hminds : s.channel.MindsHandler c) :
    .handler ∈ (s.setChannel c).ready ∨ (s.setChannel c).Blocked .handler := by
  rcases h with hready | hblocked
  · exact .inl (mem_ready_setChannel (.inl hready))
  · by_cases htells : s.channel.tellsHandler c
    · exact .inl (mem_ready_setChannel (.inr (.inr ⟨rfl, htells⟩)))
    · refine .inr (hblocked.handler_congr (s.setChannel_side c) fun hslot hkept => ?_)
      rw [setChannel_channel]
      obtain ⟨hwaits, hsame⟩ := (hminds hslot).resolve_left htells
      exact ⟨hwaits, hsame.trans hkept⟩

namespace Alert

/-- A session stays alert if the change of its channel tells whom it concerns. -/
theorem setChannel (hs : s.Alert) {c : Channel} (hhandler : s.channel.MindsHandler c)
    (hcallers : s.channel.MindsCallers c) : (s.setChannel c).Alert := by
  intro side
  cases side with
  | handler => exact handler_setChannel (hs .handler) hhandler
  | caller => exact caller_setChannel (hs .caller) hcallers

/-- A session stays alert if somebody is woken. -/
theorem wake (hs : s.Alert) (who : StatementSide) : (s.wake who).Alert := by
  obtain ⟨ready, hwake⟩ := s.wake_eq who
  refine hs.of_same (fun side hside => mem_ready_wake hside who) (s.wake_side who)
    (s.wake_channel who) ?_ ?_
  · rw [hwake]
  · rw [hwake]

/-! ### What the outside does -/

/-- A session stays alert when a payload arrives. -/
theorem feed (hs : s.Alert) (payload : List UInt8) : (s.feed payload).Alert := by
  unfold StatementSession.feed
  split
  · dsimp only
    intro side
    cases side with
    | caller =>
      have hcaller : .caller ∈ s.ready ∨
          ({ s with queue := s.queue ++ [payload] } : StatementSession).Blocked .caller :=
        hs .caller
      split
      · refine hcaller.imp (fun hready => mem_ready_wake hready .handler) fun hblocked => ?_
        obtain ⟨ready, hwake⟩ := wake_eq
          ({ s with queue := s.queue ++ [payload] } : StatementSession) .handler
        rw [hwake]
        exact hblocked
      · exact hcaller
    | handler =>
      cases hhand : s.intake with
      | idle => exact .inl (mem_ready_wake_self _ _)
      | decoding other =>
        refine (hs .handler).imp_right fun hblocked => ?_
        simp [Blocked, hhand] at hblocked
      | storing row =>
        refine (hs .handler).imp_right fun hblocked => ?_
        simpa [Blocked, hhand] using hblocked
  · exact hs

/-- A session stays alert when the decoding is cut off. -/
theorem cutOff (hs : s.Alert) : s.cutOff.Alert := by
  unfold StatementSession.cutOff
  have hbusy : ({ s.setChannel s.channel.cutOff with intake := .idle }.wake .handler).Alert := by
    intro side
    cases side with
    | handler => exact .inl (mem_ready_wake_self _ _)
    | caller =>
      have hcaller := caller_setChannel (hs .caller)
        (.of_answer (Channel.cutOff_answer s.channel))
      obtain ⟨ready, hwake⟩ := wake_eq
        ({ s.setChannel s.channel.cutOff with intake := .idle } : StatementSession) .handler
      refine hcaller.imp (fun hready => mem_ready_wake hready _) fun hblocked => ?_
      rw [hwake]
      exact hblocked
  split
  · exact hs
  · exact hbusy

/-- A session stays alert when the handler is let go of. -/
theorem dropHandler (hs : s.Alert) : s.dropHandler.Alert := by
  unfold StatementSession.dropHandler
  split
  · intro side
    cases side with
    | handler => exact .inr rfl
    | caller => exact caller_setChannel (hs .caller) s.channel.mindsCallers_letGo
  · exact hs

/-- A session stays alert when the owner of the response does something with it. -/
theorem perform (hs : s.Alert) (label : Nat) (step : ResponseStep) :
    (s.perform label step).2.Alert := by
  unfold StatementSession.perform
  split
  · exact hs
  · exact hs
  · cases step with
    | pull pull bound =>
      intro side
      cases side with
      | handler =>
        refine (hs .handler).imp (fun hready => mem_ready_wake hready _) fun hblocked => ?_
        exact hblocked.handler_congr (wake_side _ _) fun hslot hkept => by
          simpa [StatementSession.start] using And.intro hslot hkept
      | caller => exact .inl (mem_ready_wake_self _ _)
    | take => exact hs.setChannel s.channel.mindsHandler_take (.of_answer s.channel.take_answer)
    | drop => exact hs.setChannel s.channel.mindsHandler_drop (.of_answer rfl)
    | readId => exact hs
    | describe => exact hs

/-- Without a call, the caller has nothing to do. -/
theorem of_no_call (h : .handler ∈ s.ready ∨ s.Blocked .handler) (hcall : s.call = none) :
    s.Alert := by
  intro side
  cases side with
  | handler => exact h
  | caller => exact .inr fun label call hsome => by simp [hcall] at hsome

/-- A call that is given up leaves the handler as it is. -/
theorem giveUp (h : .handler ∈ s.ready ∨ s.Blocked .handler) (holder : Holder) :
    ({ s with call := none, holder := holder, ready := s.ready.erase .caller } :
      StatementSession).Alert :=
  of_no_call (h.imp_left fun hready => (List.mem_erase_of_ne (by decide)).mpr hready) rfl

/-- A session stays alert when a call is cancelled. -/
theorem cancel (hs : s.Alert) (label : Nat) : ((s.cancel? label).getD s).Alert := by
  unfold cancel?
  split
  · split
    · exact giveUp (handler_setChannel (hs .handler) s.channel.mindsHandler_drop) _
    · exact hs
  · exact hs

/-- A session stays alert when a call is withdrawn. -/
theorem withdraw (hs : s.Alert) : s.withdraw.Alert := by
  unfold StatementSession.withdraw
  split
  · split
    · exact hs
    · exact giveUp (hs .handler) _
  · exact hs

/-- A call whose deadline has passed is woken; any other one waits on. -/
theorem pass (hs : s.Alert) (gap : Nat) : (s.pass gap).Alert := by
  unfold StatementSession.pass
  dsimp only
  split
  · intro side
    cases side with
    | handler =>
      refine (hs .handler).imp (fun hready => mem_ready_wake hready _) fun hblocked => ?_
      exact hblocked.handler_congr (wake_side _ _) fun hslot hkept => by
        simpa using And.intro hslot hkept
    | caller => exact .inl (mem_ready_wake_self _ _)
  · rename_i hdue
    intro side
    cases side with
    | handler => exact hs .handler
    | caller =>
      refine (hs .caller).imp_right fun hblocked label call hcall => ?_
      have hrunning : s.call = some (label, call) := hcall
      have hearly : call.isDue (s.now + gap) = false := by
        rw [hrunning] at hdue
        exact Bool.eq_false_iff.mpr hdue
      exact PullCall.asleep_of_same (hblocked label call hcall) hearly rfl (Nat.le_refl _)

/-! ### What the two sides do -/

/-- Who has had a turn is in front again or blocked. -/
theorem of_turn {who : StatementSide} (goesOn : Bool)
    (hothers : ∀ side, side ≠ who → side ∈ s.ready ∨ s.Blocked side)
    (hwho : goesOn = false → s.Blocked who) :
    (if goesOn then { s with ready := who :: s.ready.erase who } else s).Alert := by
  intro side
  cases goesOn with
  | false =>
    by_cases hside : side = who
    · rw [hside]
      exact .inr (hwho rfl)
    · exact hothers side hside
  | true =>
    by_cases hside : side = who
    · rw [hside]
      exact .inl List.mem_cons_self
    · refine (hothers side hside).imp_left fun hready => ?_
      exact List.mem_cons_of_mem _ ((List.mem_erase_of_ne hside).mpr hready)

end Alert

/-- A turn of the handler leaves the caller woken or blocked. -/
theorem handlerTurn_caller (h : .caller ∈ s.ready ∨ s.Blocked .caller) :
    .caller ∈ s.handlerTurn.1.ready ∨ s.handlerTurn.1.Blocked .caller := by
  unfold handlerTurn
  cases s.intake with
  | idle => cases s.queue <;> exact h
  | decoding payload =>
    have hcaller := caller_setChannel h (s.channel.mindsCallers_receive payload)
    dsimp only
    cases hreceive : s.channel.receive payload with
    | mk c row =>
      rw [hreceive] at hcaller
      cases row <;> exact hcaller
  | storing row =>
    have hcaller := caller_setChannel h (.of_answer (s.channel.store_answer row))
    dsimp only
    cases hstore : s.channel.store row with
    | mk c stored =>
      rw [hstore] at hcaller
      cases stored <;> exact hcaller

/-- The handler pauses only if it is blocked. -/
theorem handlerTurn_blocked (h : s.handlerTurn.2 = false) : s.handlerTurn.1.Blocked .handler := by
  unfold handlerTurn at h ⊢
  cases hhand : s.intake with
  | idle =>
    cases hqueue : s.queue with
    | nil => simpa [Blocked, hhand] using hqueue
    | cons payload queue => simp [hhand, hqueue] at h
  | decoding payload =>
    cases hreceive : s.channel.receive payload with
    | mk c row => cases row <;> simp [hhand, hreceive, handledOne] at h
  | storing row =>
    cases hstore : s.channel.store row with
    | mk c stored =>
      cases stored with
      | true => simp [hhand, hstore, handledOne] at h
      | false =>
        have hstays : (s.channel.store row).2 = false := by rw [hstore]
        have hwaits := Channel.store_waits hstays
        rw [hstore] at hwaits
        obtain ⟨ready, hset⟩ := s.setChannel_eq c
        dsimp only
        rw [hstore]
        simpa [Blocked, hset, hhand] using hwaits

/-- A call that ends leaves the handler woken or blocked. -/
theorem finish_handler (h : .handler ∈ s.ready ∨ s.Blocked .handler) (label : Nat) (pull : Pull)
    (result : PullResult) : .handler ∈ (s.finish label pull result).ready ∨
      (s.finish label pull result).Blocked .handler := by
  let idle : StatementSession :=
    { s with call := none, finished := s.finished ++ [(label, result)] }
  have hidle : .handler ∈ idle.ready ∨ idle.Blocked .handler := h
  unfold finish
  dsimp only
  split
  · exact handler_setChannel hidle s.channel.mindsHandler_drop
  · exact h

/-- A turn of the caller leaves the handler woken or blocked. -/
theorem callerTurn_handler (h : .handler ∈ s.ready ∨ s.Blocked .handler) :
    .handler ∈ s.callerTurn.1.ready ∨ s.callerTurn.1.Blocked .handler := by
  unfold callerTurn
  cases hcall : s.call with
  | none => exact h
  | some running =>
    obtain ⟨label, call⟩ := running
    have hhandler := handler_setChannel h (s.channel.mindsHandler_turn call s.now)
    dsimp only
    cases hturn : call.turn s.now s.channel with
    | mk progress c =>
      rw [hturn] at hhandler
      cases progress with
      | again call' => exact hhandler
      | asleep => exact hhandler
      | finished result => exact finish_handler hhandler label call.pull result

/-- The caller pauses only if it has no call or one that waits on. -/
theorem callerTurn_blocked (h : s.callerTurn.2 = false) : s.callerTurn.1.Blocked .caller := by
  unfold callerTurn at h ⊢
  cases hcall : s.call with
  | none => simp [Blocked, hcall]
  | some running =>
    obtain ⟨label, call⟩ := running
    rw [hcall] at h
    dsimp only at h ⊢
    cases hturn : call.turn s.now s.channel with
    | mk progress c =>
      rw [hturn] at h
      cases progress with
      | again call' => simp at h
      | asleep =>
        have hasleep : (call.turn s.now s.channel).1 = .asleep := by rw [hturn]
        have hpasses := PullCall.turn_asleep hasleep
        rw [hturn] at hpasses
        obtain ⟨hsame, hnow⟩ := s.setChannel_call c
        intro label' call' hrunning
        rw [hsame, hcall] at hrunning
        obtain ⟨rfl, rfl⟩ := Prod.mk.inj (Option.some.inj hrunning)
        rw [hnow, setChannel_channel, hpasses]
        exact hasleep
      | finished result =>
        intro label' call' hrunning
        unfold finish at hrunning
        dsimp only at hrunning
        split at hrunning
        · rw [(setChannel_call _ _).1] at hrunning
          cases hrunning
        · cases hrunning

/-- Every action wakes whoever can go on because of it. -/
theorem Alert.act (hs : s.Alert) (action : Action) : (s.act action).Alert := by
  cases action with
  | feed payload => exact hs.feed payload
  | abandon reason =>
    dsimp only [StatementSession.act]
    unfold abandon
    split
    · exact hs.setChannel (s.channel.mindsHandler_finish _) (s.channel.mindsCallers_finish _)
    · exact hs
  | cutOff => exact hs.cutOff
  | dropHandler => exact hs.dropHandler
  | perform label step => exact hs.perform label step
  | cancel label => exact hs.cancel label
  | withdraw => exact hs.withdraw
  | pass gap => exact hs.pass gap
  | turn who =>
    have hothers (side : StatementSide) (hside : side ≠ who) :
        side ∈ s.ready.erase who ∨ s.Blocked side :=
      (hs side).imp_left fun hready => (List.mem_erase_of_ne hside).mpr hready
    dsimp only [StatementSession.act]
    unfold turnOf
    cases who with
    | handler =>
      refine of_turn _ (fun side hside => ?_) handlerTurn_blocked
      cases side with
      | handler => exact absurd rfl hside
      | caller => exact handlerTurn_caller (hothers .caller hside)
    | caller =>
      refine of_turn _ (fun side hside => ?_) callerTurn_blocked
      cases side with
      | caller => exact absurd rfl hside
      | handler => exact callerTurn_handler (hothers .handler hside)

/-- A fresh session is alert. -/
theorem Alert.fresh (id : UInt32) (capacity : Nat) (bound : Duration) :
    (fresh id capacity bound).Alert := by
  intro side
  cases side with
  | handler => exact .inr rfl
  | caller => exact .inr fun label call hcall => by cases hcall

/-- In every run, a side that was not woken cannot go on. -/
theorem alert_runOf (id : UInt32) (capacity : Nat) (bound : Duration) (actions : List Action) :
    (runOf id capacity bound actions).1.Alert :=
  follow_invariant (P := fun s _ => s.Alert) (fun _ _ action hs => hs.act action)
    (.fresh id capacity bound) actions

end StatementSession

end BeeProtocol
