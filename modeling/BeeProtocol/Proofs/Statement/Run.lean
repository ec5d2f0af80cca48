import BeeProtocol.Statement.Session
import BeeProtocol.Proofs.Statement.Pull
import BeeProtocol.Proofs.Time.Schedule

/-!
# Runs of a statement

A run of a statement is any sequence of what the outside, the caller and the two sides can do, in
any order: a side may take its turn whether or not it was woken. Beside the statement stands its
history, which tells what the handler has heard and which rows the caller has got.
-/

namespace BeeProtocol

namespace StatementSession

/-! ### More that the outside does -/

/-- Cuts off the decoding that is going on and keeps the handler. -/
def cutOff (s : StatementSession) : StatementSession :=
  match s.intake with
  | .idle => s
  | _ => { s.setChannel s.channel.cutOff with intake := .idle }.wake .handler

/-- The caller gives a call up. The response stays with it, unless the call took it over. -/
def withdraw (s : StatementSession) : StatementSession :=
  match s.call with
  | some (_, call) =>
    if call.pull.consumes then s
    else { s with call := none, holder := .nobody, ready := s.ready.erase .caller }
  | none => s

/-- What can be done with a statement. -/
inductive Action
  | feed (payload : List UInt8)
  | abandon (reason : ClientError)
  | cutOff
  | dropHandler
  | perform (label : Nat) (step : ResponseStep)
  | cancel (label : Nat)
  | withdraw
  | pass (gap : Nat)
  | turn (side : StatementSide)

/-- The statement after an action. -/
def act (s : StatementSession) : Action → StatementSession
  | .feed payload => s.feed payload
  | .abandon reason => s.abandon reason
  | .cutOff => s.cutOff
  | .dropHandler => s.dropHandler
  | .perform label step => (s.perform label step).2
  | .cancel label => (s.cancel? label).getD s
  | .withdraw => s.withdraw
  | .pass gap => s.pass gap
  | .turn side => s.turnOf side

/-- A turn on the schedule of a statement is an action. -/
theorem exists_action_turn (s : StatementSession) (h : Schedule.isBusy s) :
    ∃ action : Action, Schedule.turn s = s.act action := by
  cases hready : s.ready with
  | nil => simp [Schedule.isBusy, hready] at h
  | cons side ready => exact ⟨.turn side, by simp [Schedule.turn, hready, act]⟩

/-- Letting time pass is a sequence of actions. -/
theorem exists_actions_elapse (gap : Nat) (s : StatementSession) :
    ∃ actions : List Action, Schedule.elapse gap s = actions.foldl act s :=
  Schedule.exists_actions_elapse exists_action_turn (fun gap _ => ⟨.pass gap, rfl⟩) gap s

/-- Letting the sides run until none can go on is a sequence of actions. -/
theorem exists_actions_settle (s : StatementSession) :
    ∃ actions : List Action, Schedule.settle s = actions.foldl act s :=
  Schedule.exists_actions_run exists_action_turn (Schedule.work s) s

/-! ### What an action changes -/

/-- What the handler has before it and whether it is still there. -/
def side (s : StatementSession) : Intake × List (List UInt8) × Bool :=
  (s.intake, s.queue, s.isAttached)

/-- The channel after an action. -/
def channelAfter (s : StatementSession) : Action → Channel
  | .abandon reason => if s.isAttached then s.channel.finish (some reason) else s.channel
  | .cutOff =>
    match s.intake with
    | .idle => s.channel
    | _ => s.channel.cutOff
  | .dropHandler => if s.isAttached then s.channel.letGo else s.channel
  | .perform _ step =>
    match s.holder, step with
    | .nobody, .take => s.channel.take.2
    | .nobody, .drop => s.channel.drop
    | _, _ => s.channel
  | .cancel label => if s.call.any (·.1 = label) then s.channel.drop else s.channel
  | .turn .handler =>
    match s.intake with
    | .idle => s.channel
    | .decoding payload => (s.channel.receive payload).1
    | .storing row => (s.channel.store row).1
  | .turn .caller =>
    match s.call with
    | some (_, call) =>
      match call.turn s.now s.channel with
      | (.finished _, c) => if call.pull.consumes then c.drop else c
      | (_, c) => c
    | none => s.channel
  | _ => s.channel

/-- The handler's side after an action. -/
def sideAfter (s : StatementSession) : Action → Intake × List (List UInt8) × Bool
  | .feed payload =>
    if s.isAttached then (s.intake, s.queue ++ [payload], true) else s.side
  | .cutOff => (.idle, s.queue, s.isAttached)
  | .dropHandler => if s.isAttached then (.idle, [], false) else s.side
  | .turn .handler =>
    match s.intake, s.queue with
    | .idle, [] => s.side
    | .idle, payload :: queue => (.decoding payload, queue, s.isAttached)
    | .decoding payload, queue =>
      ((s.channel.receive payload).2.elim .idle .storing, queue, s.isAttached)
    | .storing row, queue =>
      (if (s.channel.store row).2 then .idle else .storing row, queue, s.isAttached)
  | _ => s.side

/-- Waking a side changes only who can go on. -/
theorem wake_eq (s : StatementSession) (side : StatementSide) :
    ∃ ready, s.wake side = { s with ready := ready } := by
  rw [wake]
  split
  · exact ⟨s.ready, rfl⟩
  · exact ⟨_, rfl⟩

/-- Changing the channel changes nothing else but who can go on. -/
theorem setChannel_eq (s : StatementSession) (c : Channel) :
    ∃ ready, s.setChannel c = { s with channel := c, ready := ready } := by
  have hwake (side : StatementSide) (wakes : Bool) (ready : List StatementSide) :
      ∃ ready', (if wakes then { s with channel := c, ready := ready }.wake side
        else { s with channel := c, ready := ready }) =
          { s with channel := c, ready := ready' } := by
    cases wakes with
    | false => exact ⟨ready, rfl⟩
    | true => exact wake_eq _ side
  obtain ⟨ready, hcaller⟩ :=
    hwake .caller (s.channel.tellsCallers c && s.call.isSome) s.ready
  obtain ⟨ready', hhandler⟩ := hwake .handler (s.channel.tellsHandler c) ready
  refine ⟨ready', ?_⟩
  unfold setChannel
  dsimp only
  rw [hcaller]
  exact hhandler

section Fields

variable (s : StatementSession) (c : Channel)

/-- Waking somebody leaves the channel. -/
@[simp] theorem wake_channel (who : StatementSide) : (s.wake who).channel = s.channel := by
  obtain ⟨ready, hwake⟩ := s.wake_eq who
  rw [hwake]

/-- Waking somebody leaves the side of the handler. -/
@[simp] theorem wake_side (who : StatementSide) : (s.wake who).side = s.side := by
  obtain ⟨ready, hwake⟩ := s.wake_eq who
  rw [hwake]
  rfl

/-- The channel is as it was set. -/
@[simp] theorem setChannel_channel : (s.setChannel c).channel = c := by
  obtain ⟨ready, hset⟩ := s.setChannel_eq c
  rw [hset]

/-- Setting the channel leaves the side of the handler. -/
@[simp] theorem setChannel_side : (s.setChannel c).side = s.side := by
  obtain ⟨ready, hset⟩ := s.setChannel_eq c
  rw [hset]
  rfl

end Fields

/-- The handler's turn, seen from the channel and from its own side. -/
theorem handlerTurn_fields (s : StatementSession) :
    s.handlerTurn.1.channel = s.channelAfter (.turn .handler) ∧
      s.handlerTurn.1.side = s.sideAfter (.turn .handler) := by
  unfold handlerTurn channelAfter sideAfter
  cases hhand : s.intake with
  | idle => cases hqueue : s.queue <;> simp [side]
  | decoding payload =>
    cases hreceive : s.channel.receive payload with
    | mk c row =>
      obtain ⟨ready, hset⟩ := s.setChannel_eq c
      cases row <;> simp [hreceive, hset, handledOne, side]
  | storing row =>
    cases hstore : s.channel.store row with
    | mk c stored =>
      obtain ⟨ready, hset⟩ := s.setChannel_eq c
      cases stored <;> simp [hstore, hset, handledOne, side, hhand]

/-- The caller's turn changes the channel like its call, which may drop the response at its end. -/
theorem callerTurn_fields (s : StatementSession) :
    s.callerTurn.1.channel = s.channelAfter (.turn .caller) ∧ s.callerTurn.1.side = s.side := by
  unfold callerTurn channelAfter
  cases hcall : s.call with
  | none => exact ⟨rfl, rfl⟩
  | some running =>
    obtain ⟨label, call⟩ := running
    dsimp only
    obtain ⟨ready, hset⟩ := s.setChannel_eq (call.turn s.now s.channel).2
    cases hturn : call.turn s.now s.channel with
    | mk progress c =>
      rw [hturn] at hset
      dsimp only at hset ⊢
      rw [hset]
      cases progress with
      | again call' => exact ⟨rfl, rfl⟩
      | asleep => exact ⟨rfl, rfl⟩
      | finished result =>
        unfold finish
        dsimp only
        split
        · exact ⟨setChannel_channel _ _, setChannel_side _ _⟩
        · exact ⟨rfl, rfl⟩

/-- Being cut off empties the handler's hands. -/
theorem cutOff_fields (s : StatementSession) :
    s.cutOff.channel = s.channelAfter .cutOff ∧ s.cutOff.side = s.sideAfter .cutOff := by
  unfold cutOff channelAfter sideAfter
  cases hhand : s.intake with
  | idle => exact ⟨rfl, by simp [side, hhand]⟩
  | decoding payload =>
    obtain ⟨ready, hset⟩ := s.setChannel_eq s.channel.cutOff
    dsimp only
    rw [hset]
    exact ⟨wake_channel _ _, wake_side _ _⟩
  | storing row =>
    obtain ⟨ready, hset⟩ := s.setChannel_eq s.channel.cutOff
    dsimp only
    rw [hset]
    exact ⟨wake_channel _ _, wake_side _ _⟩

/-- Only taking a row and dropping the response change the channel. -/
theorem perform_fields (s : StatementSession) (label : Nat) (step : ResponseStep) :
    (s.perform label step).2.channel = s.channelAfter (.perform label step) ∧
      (s.perform label step).2.side = s.side := by
  unfold perform channelAfter
  cases hholder : s.holder with
  | call => exact ⟨rfl, rfl⟩
  | gone => exact ⟨rfl, rfl⟩
  | nobody =>
    cases step with
    | pull pull bound => exact ⟨wake_channel _ _, wake_side _ _⟩
    | take => exact ⟨setChannel_channel _ _, setChannel_side _ _⟩
    | readId => exact ⟨rfl, rfl⟩
    | describe => exact ⟨rfl, rfl⟩
    | drop => exact ⟨setChannel_channel _ _, setChannel_side _ _⟩

/-- A cancelled call drops the response. -/
theorem cancel_fields (s : StatementSession) (label : Nat) :
    ((s.cancel? label).getD s).channel = s.channelAfter (.cancel label) ∧
      ((s.cancel? label).getD s).side = s.side := by
  unfold cancel? channelAfter
  cases hcall : s.call with
  | none => exact ⟨rfl, rfl⟩
  | some running =>
    dsimp only [Option.any]
    by_cases hlabel : running.1 = label
    · rw [if_pos hlabel, if_pos (by simpa using hlabel)]
      exact ⟨setChannel_channel _ _, setChannel_side _ _⟩
    · rw [if_neg hlabel, if_neg (by simpa using hlabel)]
      exact ⟨rfl, rfl⟩

/-- A turn changes what the side whose turn it is changes. -/
theorem turnOf_fields (s : StatementSession) (who : StatementSide) :
    (s.turnOf who).channel = s.channelAfter (.turn who) ∧
      (s.turnOf who).side = s.sideAfter (.turn who) := by
  unfold turnOf
  cases who with
  | handler =>
    have hfields := handlerTurn_fields { s with ready := s.ready.erase .handler }
    dsimp only
    split
    · exact hfields
    · exact hfields
  | caller =>
    have hfields := callerTurn_fields { s with ready := s.ready.erase .caller }
    dsimp only
    split
    · exact hfields
    · exact hfields

/-- All that an action does to the channel and to the handler's side. -/
theorem act_fields (s : StatementSession) (action : Action) :
    (s.act action).channel = s.channelAfter action ∧
      (s.act action).side = s.sideAfter action := by
  cases action with
  | feed payload =>
    dsimp only [act, channelAfter, sideAfter]
    unfold feed
    cases hattached : s.isAttached with
    | false => exact ⟨rfl, rfl⟩
    | true =>
      rw [if_pos rfl, if_pos rfl]
      dsimp only
      split
      · exact ⟨wake_channel _ _, wake_side _ _⟩
      · exact ⟨rfl, rfl⟩
  | abandon reason =>
    dsimp only [act, channelAfter, sideAfter]
    unfold abandon
    split
    · exact ⟨setChannel_channel _ _, setChannel_side _ _⟩
    · exact ⟨rfl, rfl⟩
  | cutOff => exact s.cutOff_fields
  | dropHandler =>
    dsimp only [act, channelAfter, sideAfter]
    unfold dropHandler
    split
    · exact ⟨setChannel_channel _ _, rfl⟩
    · exact ⟨rfl, rfl⟩
  | perform label step => exact s.perform_fields label step
  | cancel label => exact s.cancel_fields label
  | withdraw =>
    dsimp only [act, channelAfter, sideAfter]
    unfold withdraw
    split
    · split
      · exact ⟨rfl, rfl⟩
      · exact ⟨rfl, rfl⟩
    · exact ⟨rfl, rfl⟩
  | pass gap =>
    dsimp only [act, channelAfter, sideAfter]
    unfold pass
    dsimp only
    split
    · exact ⟨wake_channel _ _, wake_side _ _⟩
    · exact ⟨rfl, rfl⟩
  | turn who => exact s.turnOf_fields who

/-! ### The history of a run -/

end StatementSession

/-- A signal that the handler has begun to deal with. -/
structure Hearing where
  /-- What the handler deals with. -/
  signal : Signal
  /-- Whether the handler was cut off before it was done. -/
  isCut : Bool

/-- The signals whose handling was not cut off. -/
def Hearing.completed (hearings : List Hearing) : List Signal :=
  (hearings.filter fun hearing => !hearing.isCut).map (·.signal)

/-- What has happened to a statement so far. -/
structure StatementHistory where
  /-- What the handler has dealt with. -/
  hearings : List Hearing
  /-- The position of the payload that was decoded last. -/
  last : Nat
  /-- The rows that the caller has got. -/
  delivered : List Row

namespace StatementHistory

/-- Nothing has happened. -/
def empty : StatementHistory := ⟨[], 0, []⟩

/-- All signals that the handler has begun to deal with. -/
def begun (h : StatementHistory) : List Signal := h.hearings.map (·.signal)

/-- The signals without those whose handling was cut off. -/
def processed (h : StatementHistory) : List Signal := Hearing.completed h.hearings

/-- The handler hears a signal. -/
def hear (h : StatementHistory) (signal : Signal) : StatementHistory :=
  { h with hearings := h.hearings ++ [⟨signal, false⟩] }

/-- The handler decodes a payload. -/
def decode (h : StatementHistory) (payload : List UInt8) : StatementHistory :=
  { h.hear (.ofPayload payload) with last := h.hearings.length }

/-- The decoding of a payload is cut off, which matters if a row of it is still to be stored. -/
def cut (h : StatementHistory) (intake : Intake) : StatementHistory :=
  match intake with
  | .storing _ =>
    { h with hearings := h.hearings.modify h.last fun hearing => { hearing with isCut := true } }
  | _ => h

/-- The caller gets rows. -/
def deliver (h : StatementHistory) (rows : List Row) : StatementHistory :=
  { h with delivered := h.delivered ++ rows }

end StatementHistory

/-- The rows that an answer hands over. -/
def ResponseAnswer.rows : ResponseAnswer → List Row
  | .row (.ok taken) => [taken]
  | _ => []

namespace StatementSession

/-- The history after an action. -/
def note (s : StatementSession) (h : StatementHistory) : Action → StatementHistory
  | .abandon reason => if s.isAttached then h.hear (.abandoned reason) else h
  | .cutOff => h.cut s.intake
  | .dropHandler =>
    if s.isAttached then (h.cut s.intake).hear (.abandoned .connectionClosed) else h
  | .perform label step => h.deliver (s.perform label step).1.rows
  | .turn .handler =>
    match s.intake with
    | .decoding payload => h.decode payload
    | _ => h
  | .turn .caller =>
    match s.call with
    | some (_, call) => h.deliver (call.gained s.now s.channel)
    | none => h
  | _ => h

/-- A statement and its history after more actions. -/
def follow (s : StatementSession) (h : StatementHistory) :
    List Action → StatementSession × StatementHistory
  | [] => (s, h)
  | action :: actions => (s.act action).follow (s.note h action) actions

/-- A statement and its history after actions from its beginning. -/
def runOf (id : UInt32) (capacity : Nat) (bound : Duration) (actions : List Action) :
    StatementSession × StatementHistory :=
  (fresh id capacity bound).follow .empty actions

/-- What holds in the beginning and is kept by every action holds after every run. -/
theorem follow_invariant {P : StatementSession → StatementHistory → Prop}
    (hstep : ∀ s h action, P s h → P (s.act action) (s.note h action)) {s : StatementSession}
    {h : StatementHistory} (hstart : P s h) (actions : List Action) :
    P (s.follow h actions).1 (s.follow h actions).2 := by
  induction actions generalizing s h with
  | nil => exact hstart
  | cons action actions ih => exact ih (hstep s h action hstart)

end StatementSession

end BeeProtocol
