import BeeProtocol.Proofs.Statement.Deadlines

/-!
# Ways to drain a response

A caller can collect the rows of a response, stream them, or ask for one row after the other. Each
way takes a row in two parts: it looks whether there is one, waiting for it if need be, and then
takes it without waiting. Others go on in between. Since the three ways look and take alike, they
get the same rows and come to the same end.
-/

namespace BeeProtocol

/-- The ways to drain a response. -/
inductive DrainWay
  | collect
  | stream
  /-- One call after the other, as long as they bring rows. -/
  | nextRow

/-- How a drain stands. -/
inductive DrainStage
  | pending
  /-- It has got all rows. -/
  | complete
  | broken (reason : ClientError)

namespace DrainWay

/-- The pending call of a drain that has taken some rows. -/
def pull : DrainWay → List Row → Pull
  | collect, rows => .collect rows
  | stream, rows => .stream rows
  | nextRow, _ => .nextRow

/-- What the caller has been told when it has taken some rows. -/
def told : DrainWay → List Row → DrainStage → List PullResult
  | nextRow, rows, .pending => rows.map fun row => .nextRow (some row)
  | _, _, .pending => []
  | collect, rows, .complete => [.collected rows]
  | stream, rows, .complete => [.streamed rows none]
  | nextRow, rows, .complete => rows.map (fun row => .nextRow (some row)) ++ [.nextRow none]
  | collect, _, .broken reason => [.failed reason]
  | stream, rows, .broken reason => [.streamed rows (some reason)]
  | nextRow, rows, .broken reason =>
    rows.map (fun row => .nextRow (some row)) ++ [.failed reason]

end DrainWay

/-- A wait fails with the statement, or when nothing is there and its time is over. -/
theorem PullCall.of_rowKnown?_error {call : PullCall} {now : Nat} {c : Channel}
    {reason : ClientError} (h : call.rowKnown? now c = some (.error reason)) :
    c.failure = some reason ∨
      c.rowReady? = none ∧ call.isDue now = true ∧ reason = call.timeout c "row" := by
  unfold PullCall.rowKnown? at h
  cases hready : c.rowReady? with
  | none =>
    rw [hready] at h
    dsimp only at h
    split at h
    · rename_i hdue
      exact .inr ⟨rfl, hdue, (Except.error.inj (Option.some.inj h)).symm⟩
    · cases h
  | some known =>
    rw [hready] at h
    obtain rfl := Option.some.inj h
    unfold Channel.rowReady? at hready
    cases hfailure : c.failure with
    | some failure =>
      rw [hfailure] at hready
      exact .inl (congrArg some (Except.error.inj (Option.some.inj hready)))
    | none =>
      rw [hfailure] at hready
      cases hrows : c.rows with
      | cons row rows => simp [hrows] at hready
      | nil => cases hdone : c.isDone <;> simp [hrows, hdone] at hready

namespace StatementSession

/-! ### Draining in two parts -/

/-- Whether something is done by others than the caller: the outside, the handler or the clock. -/
def Action.isOfOthers : Action → Bool
  | .feed _ | .abandon _ | .cutOff | .dropHandler | .pass _ | .turn .handler => true
  | _ => false

/-- What happens while a response is drained. -/
inductive DrainEvent
  | other (action : Action) (isOfOthers : action.isOfOthers = true)
  | look
  | take

/-- A response that is being drained. -/
structure Drain where
  /-- The statement and its caller. -/
  session : StatementSession
  /-- Whether the caller has seen a row that it has not taken yet. -/
  hasSeen : Bool

/-- What is left of the caller's turn when its call has come to something. -/
def conclude (s : StatementSession) (label : Nat) (call : PullCall)
    (outcome : PullProgress × Channel) : StatementSession :=
  let s := s.setChannel outcome.2
  match outcome.1 with
  | .again next => { s with call := some (label, next) }
  | .asleep => s
  | .finished result => s.finish label call.pull result

/-- A caller that asks for one row after the other asks again when it has got one. -/
def askAgain (s : StatementSession) (way : DrainWay) (label : Nat) : StatementSession :=
  match way, s.call, s.finished.getLast? with
  | .nextRow, none, some (_, .nextRow (some _)) => (s.perform label (.pull .nextRow none)).2
  | _, _, _ => s

namespace Drain

/-- The caller looks whether there is a row, unless it has seen one. Without a row it waits, or its
call ends. -/
def look (d : Drain) : Drain :=
  match d.session.call with
  | some (_, call) =>
    if d.hasSeen then d
    else
      match call.rowKnown? d.session.now d.session.channel with
      | some (.ok true) => { d with hasSeen := true }
      | _ => { d with session := d.session.callerTurn.1 }
  | none => d

/-- The caller takes the row that it has seen, without waiting. -/
def take (d : Drain) : Drain :=
  match d.session.call with
  | some (label, call) =>
    if d.hasSeen then
      ⟨d.session.conclude label call (call.takeRow d.session.now d.session.channel), false⟩
    else d
  | none => d

/-- A drain after an event. -/
def step (way : DrainWay) (label : Nat) (d : Drain) : DrainEvent → Drain
  | .other action _ => { d with session := d.session.act action }
  | .look => d.look
  | .take => { d.take with session := d.take.session.askAgain way label }

end Drain

/-- A response that is drained in one of the ways from now on. -/
def drain (s : StatementSession) (way : DrainWay) (label : Nat) (events : List DrainEvent) :
    Drain :=
  events.foldl (Drain.step way label) ⟨(s.perform label (.pull (way.pull []) none)).2, false⟩

/-- What the caller has been told since the beginning of the drain. -/
def drained (s : StatementSession) (way : DrainWay) (label : Nat) (events : List DrainEvent) :
    List PullResult :=
  ((s.drain way label events).session.finished.drop s.finished.length).map (·.2)

variable {s s' : StatementSession} {label : Nat} {call : PullCall}

/-- A channel that does not change wakes nobody. -/
theorem setChannel_self (s : StatementSession) : s.setChannel s.channel = s := by
  have hcallers : s.channel.tellsCallers s.channel = false := by simp [Channel.tellsCallers]
  have hhandler : s.channel.tellsHandler s.channel = false := by
    cases hslot : s.channel.slot <;> simp [Channel.tellsHandler, hslot]
  simp [setChannel, hcallers, hhandler]

/-- The turn of a call is to conclude what it has found. -/
theorem callerTurn_eq_conclude (hcall : s.call = some (label, call)) :
    s.callerTurn.1 = s.conclude label call (call.turn s.now s.channel) := by
  unfold callerTurn conclude
  rw [hcall]
  dsimp only
  cases (call.turn s.now s.channel).1 <;> rfl

/-- To look and then to take is the caller's turn. -/
theorem Drain.take_look (hcall : s.call = some (label, call)) (htakes : call.pull.takesRows) :
    (Drain.look ⟨s, false⟩).take.session = s.callerTurn.1 := by
  have hturn := PullCall.turn_of_takesRows htakes s.now s.channel
  unfold look
  rw [hcall]
  dsimp only
  rw [if_neg Bool.false_ne_true]
  split
  · rename_i hknown
    rw [hknown] at hturn
    simp only [take, hcall, if_true, callerTurn_eq_conclude hcall, hturn]
  · unfold take
    cases s.callerTurn.1.call <;> rfl

/-! ### Asking for rows -/

/-- A call that starts is the one that is under way, and somebody may be woken. -/
theorem start_eq (s : StatementSession) (label : Nat) (pull : Pull) (asked : Option Duration) :
    ∃ ready, s.start label pull asked =
      { s with
        call := some (label, .start s.now pull (asked.getD s.channel.bound))
        holder := if pull.consumes then .gone else .call
        ready := ready } := wake_eq _ .caller

/-- Who asks row by row asks again after every row. -/
theorem askAgain_of_row (hcall : s.call = none) (hfree : s.holder = .nobody) {before : Nat}
    {row : Row} (hlast : s.finished.getLast? = some (before, .nextRow (some row))) :
    s.askAgain .nextRow label = s.start label .nextRow none := by
  simp [askAgain, hcall, hlast, perform, hfree]

/-! ### What others do to a drain -/

/-- The time that an action lets pass. -/
def Action.gap : Action → Nat
  | .pass gap => gap
  | _ => 0

/-- Others leave the caller's desk as it is, but for the time. -/
theorem desk_of_others {action : Action} (hothers : action.isOfOthers = true)
    (s : StatementSession) :
    (s.act action).desk = ⟨s.now + action.gap, s.holder, s.call, s.finished⟩ := by
  cases action with
  | feed payload =>
    dsimp only [act]
    unfold feed
    split
    · dsimp only
      split
      · exact desk_wake _ _
      · rfl
    · rfl
  | abandon reason =>
    dsimp only [act]
    unfold abandon
    split
    · exact desk_setChannel _ _
    · rfl
  | cutOff =>
    dsimp only [act]
    unfold cutOff
    split
    · rfl
    · exact (desk_wake _ _).trans (desk_setChannel _ _)
  | dropHandler =>
    dsimp only [act]
    unfold dropHandler
    split
    · exact desk_setChannel _ _
    · rfl
  | pass gap =>
    dsimp only [act]
    unfold pass
    dsimp only
    split
    · exact desk_wake _ _
    · rfl
  | turn side =>
    cases side with
    | handler =>
      have hturn := desk_handlerTurn { s with ready := s.ready.erase .handler }
      dsimp only [act]
      unfold turnOf
      dsimp only
      split
      · exact hturn
      · exact hturn
    | caller => cases hothers
  | perform label step => cases hothers
  | cancel label => cases hothers
  | withdraw => cases hothers

/-- Two statements that differ at most in their callers and in who can go on. -/
structure Alike (s s' : StatementSession) : Prop where
  /-- The time is the same. -/
  now : s.now = s'.now
  /-- The channel is the same. -/
  channel : s.channel = s'.channel
  /-- The side of the handler is the same. -/
  side : s.side = s'.side

/-- What others do to two statements that are alike leaves them alike. -/
theorem Alike.act (h : s.Alike s') {action : Action} (hothers : action.isOfOthers = true) :
    (s.act action).Alike (s'.act action) := by
  obtain ⟨hintake, hqueue, hattached⟩ := side_eq_iff.mp h.side
  have hfields : s.channelAfter action = s'.channelAfter action ∧
      s.sideAfter action = s'.sideAfter action := by
    cases action with
    | turn side =>
      cases side with
      | handler =>
        simp only [channelAfter, sideAfter, h.channel, hintake, hqueue, hattached, h.side, and_self]
      | caller => cases hothers
    | perform label step => cases hothers
    | cancel label => cases hothers
    | withdraw => cases hothers
    | _ =>
      simp only [channelAfter, sideAfter, h.channel, hintake, hqueue, hattached, h.side, and_self]
  have hnow (s : StatementSession) : (s.act action).now = s.now + action.gap :=
    congrArg Desk.now (desk_of_others hothers s)
  refine ⟨?_, ?_, ?_⟩
  · rw [hnow, hnow, h.now]
  · rw [(s.act_fields action).1, (s'.act_fields action).1, hfields.1]
  · rw [(s.act_fields action).2, (s'.act_fields action).2, hfields.2]

namespace Drain

variable {way : DrainWay} {rows : List Row} {since : Nat} {d d' : Drain}

/-- The call of a drain that has taken some rows and waits for the next one since some time. -/
def callFor (s : StatementSession) (way : DrainWay) (rows : List Row) (since : Nat) : PullCall :=
  .start since (way.pull rows) s.channel.bound

/-- A drain goes on: it has taken some rows and waits for the next one since some time. A row that
it has seen is still there, unless the statement has failed. -/
structure Pending (s : StatementSession) (way : DrainWay) (label : Nat) (rows : List Row)
    (since : Nat) (d : Drain) : Prop where
  /-- The call of the drain is under way. -/
  call : d.session.call = some (label, callFor s way rows since)
  /-- Somebody has the response. -/
  holder : d.session.holder ≠ .nobody
  /-- What was told so far is told of these rows. -/
  finished : d.session.finished = s.finished ++ (way.told rows .pending).map (label, ·)
  /-- The waits have the same bound. -/
  bound : d.session.channel.bound = s.channel.bound
  /-- A row that was seen is there. -/
  seen : d.hasSeen = true → d.session.channel.failure = none → d.session.channel.rows ≠ []

/-- A drain has come to its end. -/
structure Over (s : StatementSession) (way : DrainWay) (label : Nat) (rows : List Row)
    (stage : DrainStage) (d : Drain) : Prop where
  /-- No call is under way. -/
  call : d.session.call = none
  /-- The drain has an end. -/
  ends : stage ≠ .pending
  /-- What was told in all is told of these rows and this end. -/
  finished : d.session.finished = s.finished ++ (way.told rows stage).map (label, ·)

/-- What is known about the next row does not depend on the way. -/
def known (s : StatementSession) (since : Nat) (d : Drain) : Option (Except ClientError Bool) :=
  (PullCall.start since .nextRow s.channel.bound).rowKnown? d.session.now d.session.channel

/-- Every way of draining asks for rows. -/
theorem takesRows_callFor (s : StatementSession) (way : DrainWay) (rows : List Row) (since : Nat) :
    (callFor s way rows since).pull.takesRows := by
  cases way <;> rfl

/-- What a drain has been told when it ends with a failure. -/
theorem told_of_fail (s : StatementSession) (way : DrainWay) (rows : List Row) (since : Nat)
    (reason : ClientError) : ∃ result,
      (callFor s way rows since).fail reason = .finished result ∧
        way.told rows .pending ++ [result] = way.told rows (.broken reason) := by
  cases way <;> exact ⟨_, rfl, rfl⟩

/-- What a drain has been told when no row is left. -/
theorem told_of_exhausted (s : StatementSession) (way : DrainWay) (rows : List Row) (since : Nat) :
    ∃ result, (callFor s way rows since).exhausted = .finished result ∧
      way.told rows .pending ++ [result] = way.told rows .complete := by
  cases way <;> exact ⟨_, rfl, rfl⟩

/-- A drain that has come to its end does not ask again. -/
theorem Over.askAgain {stage : DrainStage} (h : d.Over s way label rows stage) :
    d.session.askAgain way label = d.session := by
  have hends := h.ends
  have hfinished := h.finished
  unfold StatementSession.askAgain
  split
  · rename_i hlast
    rw [hfinished] at hlast
    cases stage <;> simp_all [DrainWay.told]
  · rfl

namespace Pending

/-- What is done by others does not end a drain. -/
theorem other (h : d.Pending s way label rows since) {action : Action}
    (hothers : action.isOfOthers = true) :
    Pending s way label rows since { d with session := d.session.act action } := by
  have hdesk := desk_of_others hothers d.session
  have hcaller : action ≠ .turn .caller := by
    rintro rfl
    cases hothers
  have hchannel := d.session.channelStep_act action
  refine ⟨?_, ?_, ?_, hchannel.bound_eq.trans h.bound, fun hseen hnone hempty => ?_⟩
  · exact (congrArg Desk.call hdesk).trans h.call
  · exact (congrArg Desk.holder hdesk).trans_ne h.holder
  · exact (congrArg Desk.finished hdesk).trans h.finished
  · have hkeeps := hchannel.keeps h.holder hcaller
    exact h.seen hseen (hkeeps.failure hnone) (hkeeps.rows hempty)

/-- A call that ends without having taken a row ends the drain. -/
theorem over_conclude (h : d.Pending s way label rows since) {stage : DrainStage}
    (hends : stage ≠ .pending) {result : PullResult}
    (htold : way.told rows .pending ++ [result] = way.told rows stage) (hasSeen : Bool) :
    Over s way label rows stage ⟨d.session.conclude label (callFor s way rows since)
      (.finished result, d.session.channel), hasSeen⟩ := by
  have hfinished : d.session.finished ++ [(label, result)] =
      s.finished ++ (way.told rows stage).map (label, ·) := by
    rw [h.finished, ← htold, List.map_append, List.append_assoc]
    rfl
  unfold conclude
  dsimp only
  rw [setChannel_self]
  unfold StatementSession.finish
  dsimp only
  split
  · obtain ⟨ready, hset⟩ := setChannel_eq
      { d.session with call := none, finished := d.session.finished ++ [(label, result)] }
      d.session.channel.drop
    rw [hset]
    exact ⟨rfl, hends, hfinished⟩
  · exact ⟨rfl, hends, hfinished⟩

/-! #### Looking -/

/-- What a caller that looks for a row comes to. -/
theorem look_eq (h : d.Pending s way label rows since) (hseen : d.hasSeen = false) :
    d.look =
      match d.known s since with
      | none => d
      | some (.ok true) => { d with hasSeen := true }
      | some (.ok false) =>
        ⟨d.session.conclude label (callFor s way rows since)
          ((callFor s way rows since).exhausted, d.session.channel), d.hasSeen⟩
      | some (.error reason) =>
        ⟨d.session.conclude label (callFor s way rows since)
          ((callFor s way rows since).fail reason, d.session.channel), d.hasSeen⟩ := by
  have hturn := PullCall.turn_of_takesRows (takesRows_callFor s way rows since) d.session.now
    d.session.channel
  have hknown : (callFor s way rows since).rowKnown? d.session.now d.session.channel =
      d.known s since := rfl
  unfold look
  rw [h.call]
  dsimp only
  rw [if_neg (by simp [hseen]), callerTurn_eq_conclude h.call]
  rw [hknown] at hturn ⊢
  rw [hturn]
  rcases d.known s since with _ | reason | _ | _
  · simp [conclude, setChannel_self]
  · rfl
  · rfl
  · rfl

/-- A caller that looks and finds the end of the rows has drained the response. -/
theorem look_complete (h : d.Pending s way label rows since) (hseen : d.hasSeen = false)
    (hknown : d.known s since = some (.ok false)) : Over s way label rows .complete d.look := by
  obtain ⟨result, hresult, htold⟩ := told_of_exhausted s way rows since
  rw [h.look_eq hseen, hknown]
  dsimp only
  rw [hresult]
  exact h.over_conclude (by simp) htold _

/-- A caller that looks and finds a failure ends with it. -/
theorem look_broken (h : d.Pending s way label rows since) (hseen : d.hasSeen = false)
    {reason : ClientError} (hknown : d.known s since = some (.error reason)) :
    Over s way label rows (.broken reason) d.look := by
  obtain ⟨result, hresult, htold⟩ := told_of_fail s way rows since reason
  rw [h.look_eq hseen, hknown]
  dsimp only
  rw [hresult]
  exact h.over_conclude (by simp) htold _

/-- A caller that looks and finds a row has seen it. -/
theorem look_sees (h : d.Pending s way label rows since) (hseen : d.hasSeen = false)
    (hknown : d.known s since = some (.ok true)) :
    d.look = { d with hasSeen := true } ∧
      Pending s way label rows since { d with hasSeen := true } := by
  refine ⟨by rw [h.look_eq hseen, hknown], ?_⟩
  exact ⟨h.call, h.holder, h.finished, h.bound, fun _ _ => (PullCall.of_rowKnown?_true hknown).2⟩

/-! #### Taking -/

/-- A caller that has seen a row takes the oldest one, or finds that the statement has failed. -/
theorem take_cases (h : d.Pending s way label rows since) (hseen : d.hasSeen = true) :
    (∃ reason, d.session.channel.failure = some reason ∧
      d.session.channel.take = (.error reason, d.session.channel)) ∨
    ∃ row c, d.session.channel.take = (.ok row, c) := by
  rcases d.session.channel.take_eq with ⟨reason, hfailure, htake⟩ | ⟨hnone, hempty, -⟩ |
    ⟨row, buffered, -, -, htake⟩
  · exact .inl ⟨reason, hfailure, htake⟩
  · exact absurd hempty (h.seen hseen hnone)
  · exact .inr ⟨row, _, htake⟩

/-- A drain that has seen a row takes it and goes on without a look. -/
theorem take_eq (h : d.Pending s way label rows since) (hseen : d.hasSeen = true) :
    d.take = ⟨d.session.conclude label (callFor s way rows since)
      ((callFor s way rows since).takeRow d.session.now d.session.channel), false⟩ := by
  unfold Drain.take
  rw [h.call]
  exact if_pos hseen

/-- A caller that finds a failure instead of the row that it has seen ends with it. -/
theorem take_broken (h : d.Pending s way label rows since) (hseen : d.hasSeen = true)
    {reason : ClientError} (htake : d.session.channel.take = (.error reason, d.session.channel)) :
    Over s way label rows (.broken reason) (d.step way label .take) := by
  obtain ⟨result, hresult, htold⟩ := told_of_fail s way rows since reason
  have hover : Over s way label rows (.broken reason) d.take := by
    rw [h.take_eq hseen, PullCall.takeRow, htake]
    dsimp only
    rw [hresult]
    exact h.over_conclude (by simp) htold false
  unfold Drain.step
  dsimp only
  rwa [hover.askAgain]

/-- A caller that takes the row that it has seen waits for the next one from now on. -/
theorem take_row (h : d.Pending s way label rows since) (hseen : d.hasSeen = true)
    {row : Row} {c : Channel} (htake : d.session.channel.take = (.ok row, c)) :
    Pending s way label (rows ++ [row]) d.session.now (d.step way label .take) ∧
      (d.step way label .take).hasSeen = false ∧
      (d.step way label .take).session.Alike { d.session with channel := c } := by
  have hbound : c.bound = s.channel.bound := by
    have htaken := d.session.channel.take_bound
    rw [htake] at htaken
    exact htaken.trans h.bound
  obtain ⟨ready, hset⟩ := d.session.setChannel_eq c
  have hfinished := h.finished
  unfold Drain.step
  dsimp only
  rw [h.take_eq hseen, PullCall.takeRow, htake]
  unfold conclude
  dsimp only
  rw [hset]
  cases way with
  | collect => exact ⟨⟨rfl, h.holder, hfinished, hbound, by simp⟩, rfl, ⟨rfl, rfl, rfl⟩⟩
  | stream => exact ⟨⟨rfl, h.holder, hfinished, hbound, by simp⟩, rfl, ⟨rfl, rfl, rfl⟩⟩
  | nextRow =>
    -- The call has ended with the row, and the next one starts at once.
    let paused : StatementSession :=
      { d.session with
        channel := c
        ready := ready
        call := none
        holder := .nobody
        finished := d.session.finished ++ [(label, .nextRow (some row))] }
    have hasks : paused.askAgain .nextRow label = paused.start label .nextRow none :=
      askAgain_of_row rfl rfl (List.getLast?_concat ..)
    obtain ⟨awake, hstart⟩ := paused.start_eq label .nextRow none
    rw [hstart] at hasks
    have hfinished' : paused.finished =
        s.finished ++ (DrainWay.nextRow.told (rows ++ [row]) .pending).map (label, ·) := by
      dsimp only [paused]
      rw [hfinished]
      simp [DrainWay.told]
    have hcall : PullCall.start paused.now .nextRow paused.channel.bound =
        callFor s .nextRow (rows ++ [row]) d.session.now := by
      rw [callFor, ← hbound]
      rfl
    change Pending s .nextRow label (rows ++ [row]) d.session.now
      ⟨paused.askAgain .nextRow label, false⟩ ∧ false = false ∧
        (paused.askAgain .nextRow label).Alike { d.session with channel := c }
    rw [hasks]
    exact ⟨⟨congrArg (fun call => some (label, call)) hcall, by simp [Pull.consumes], hfinished',
      hbound, by simp⟩, rfl, ⟨rfl, rfl, rfl⟩⟩

/-- A caller that has not seen a row takes none. -/
theorem step_take_unseen (h : d.Pending s way label rows since) (hseen : d.hasSeen = false) :
    d.step way label .take = d := by
  have htake : d.take = d := by
    unfold Drain.take
    rw [h.call]
    exact if_neg (by simp [hseen])
  have hasks : d.session.askAgain way label = d.session := by
    unfold StatementSession.askAgain
    split
    · rename_i hnone _
      rw [h.call] at hnone
      cases hnone
    · rfl
  unfold step
  dsimp only
  rw [htake, hasks]

/-- A caller that has seen a row does not look again. -/
theorem look_seen (h : d.Pending s way label rows since) (hseen : d.hasSeen = true) :
    d.look = d := by
  unfold look
  rw [h.call]
  exact if_pos hseen

end Pending

/-- After the end of a drain nothing happens to it any more. -/
theorem Over.step {stage : DrainStage} (h : d.Over s way label rows stage) (event : DrainEvent) :
    Over s way label rows stage (d.step way label event) := by
  cases event with
  | other action hothers =>
    have hdesk := desk_of_others hothers d.session
    exact ⟨(congrArg Desk.call hdesk).trans h.call, h.ends,
      (congrArg Desk.finished hdesk).trans h.finished⟩
  | look =>
    have hlook : d.look = d := by
      unfold look
      rw [h.call]
    unfold Drain.step
    dsimp only
    rwa [hlook]
  | take =>
    have htake : d.take = d := by
      unfold Drain.take
      rw [h.call]
    unfold Drain.step
    dsimp only
    rwa [htake, h.askAgain]

/-! ### Two ways side by side -/

/-- Two drains of one response stand alike: they wait for the same row since the same time, or they
have come to the same end. -/
inductive InStep (s : StatementSession) (label : Nat) (way way' : DrainWay) : Drain → Drain → Prop
  | pending {d d' : Drain} (rows : List Row) (since : Nat)
    (h : d.Pending s way label rows since) (h' : d'.Pending s way' label rows since)
    (seen : d.hasSeen = d'.hasSeen) (alike : d.session.Alike d'.session) :
    InStep s label way way' d d'
  | ended {d d' : Drain} (rows : List Row) (stage : DrainStage)
    (h : d.Over s way label rows stage) (h' : d'.Over s way' label rows stage) :
    InStep s label way way' d d'

/-- One event keeps two drains in step. -/
theorem InStep.step {way' : DrainWay} (h : InStep s label way way' d d') (event : DrainEvent) :
    InStep s label way way' (d.step way label event) (d'.step way' label event) := by
  cases h with
  | ended rows stage h h' => exact .ended rows stage (h.step event) (h'.step event)
  | pending rows since h h' hseen halike =>
    have hknown : d.known s since = d'.known s since := by
      rw [known, known, halike.now, halike.channel]
    cases event with
    | other action hothers =>
      exact .pending rows since (h.other hothers) (h'.other hothers) hseen (halike.act hothers)
    | look =>
      change InStep s label way way' d.look d'.look
      cases hsaw : d.hasSeen with
      | true =>
        rw [h.look_seen hsaw, h'.look_seen (hseen.symm.trans hsaw)]
        exact .pending rows since h h' hseen halike
      | false =>
        have hsaw' := hseen.symm.trans hsaw
        rcases hfound : d.known s since with _ | reason | _ | _
        · rw [h.look_eq hsaw, h'.look_eq hsaw', ← hknown, hfound]
          exact .pending rows since h h' hseen halike
        · exact .ended rows (.broken reason) (h.look_broken hsaw hfound)
            (h'.look_broken hsaw' (hknown.symm.trans hfound))
        · exact .ended rows .complete (h.look_complete hsaw hfound)
            (h'.look_complete hsaw' (hknown.symm.trans hfound))
        · obtain ⟨hlook, hpending⟩ := h.look_sees hsaw hfound
          obtain ⟨hlook', hpending'⟩ := h'.look_sees hsaw' (hknown.symm.trans hfound)
          rw [hlook, hlook']
          exact .pending rows since hpending hpending' rfl halike
    | take =>
      cases hsaw : d.hasSeen with
      | false =>
        rw [h.step_take_unseen hsaw, h'.step_take_unseen (hseen.symm.trans hsaw)]
        exact .pending rows since h h' hseen halike
      | true =>
        have hsaw' := hseen.symm.trans hsaw
        rcases h.take_cases hsaw with ⟨reason, -, htake⟩ | ⟨row, c, htake⟩
        · refine .ended rows (.broken reason) (h.take_broken hsaw htake) (h'.take_broken hsaw' ?_)
          rwa [halike.channel] at htake
        · have htake' : d'.session.channel.take = (.ok row, c) := by rwa [halike.channel] at htake
          obtain ⟨hpending, hunseen, hsame⟩ := h.take_row hsaw htake
          obtain ⟨hpending', hunseen', hsame'⟩ := h'.take_row hsaw' htake'
          rw [← halike.now] at hpending'
          refine .pending (rows ++ [row]) d.session.now hpending hpending'
            (hunseen.trans hunseen'.symm) ⟨?_, ?_, ?_⟩
          · exact hsame.now.trans (halike.now.trans hsame'.now.symm)
          · exact hsame.channel.trans hsame'.channel.symm
          · exact hsame.side.trans (halike.side.trans hsame'.side.symm)

end Drain

end StatementSession

end BeeProtocol
