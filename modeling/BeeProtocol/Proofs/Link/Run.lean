import BeeProtocol.Proofs.Link.Reader
import BeeProtocol.Proofs.Time.Schedule

/-!
# Runs of a link

A run of a link is any sequence of what the outside, the owner and the callers can do, in any order:
the reader and the calls may take their turns whether or not they were woken. As long as the
handlers that wait belong to statements with distinct ids, a run keeps the custody sound for every
handler.
-/

namespace BeeProtocol.Link

/-- What can be done with a link. -/
inductive Action
  | arrive (item : Inbound)
  | setMode (mode : StreamMode)
  /-- A call is started that brings no handler of a statement. -/
  | call (label : Nat) (call : LinkCall) (hplain : (Stage.called call).handler? = none)
  /-- A frame is to be written whose answers go to a new statement. -/
  | statement (label : Nat) (frame : Frame) (id : UInt32) (capacity : Nat) (bound : Duration)
  /-- A frame is to be written whose answer is a new single reply. -/
  | reply (label : Nat) (frame : Frame) (kind : MessageKind)
  | pull (label channel : Nat) (pull : Pull) (bound : Option Duration)
  | watch (label reply : Nat) (bound : Option Duration)
  | next (channel : Nat)
  | dropResponse (channel : Nat)
  | cancel (label : Nat)
  | allocate (count : Nat)
  | markOpen
  | giveAway
  | pass (gap : Nat)
  | turn (actor : Actor)

/-- The link after an action. -/
def act (s : Link) : Action → Link
  | .arrive item => s.arrive item
  | .setMode mode => s.setMode mode
  | .call label call _ => s.start label call
  | .statement label frame id capacity bound =>
    (s.addChannel (.fresh id capacity bound)).start label
      (.send frame (some (.statement s.channels.length)))
  | .reply label frame kind =>
    (s.addReply kind).start label (.send frame (some (.reply s.replies.length)))
  | .pull label channel pull bound => s.startPull label channel pull bound
  | .watch label reply bound => s.startWatch label reply bound
  | .next channel => (s.next channel).2
  | .dropResponse channel => s.dropResponse channel
  | .cancel label => (s.cancel? label).getD s
  | .allocate count => (s.nextIds count).2
  | .markOpen => s.markOpen
  | .giveAway => s.giveAway
  | .pass gap => s.pass gap
  | .turn actor => s.turnOf actor

/-- A turn on the schedule of a link is an action. -/
theorem exists_action_turn (s : Link) (h : Schedule.isBusy s) :
    ∃ action : Action, Schedule.turn s = s.act action := by
  cases hready : s.ready with
  | nil => simp [Schedule.isBusy, hready] at h
  | cons actor ready => exact ⟨.turn actor, by simp [Schedule.turn, hready, act]⟩

/-- Letting time pass is a sequence of actions. -/
theorem exists_actions_elapse (gap : Nat) (s : Link) :
    ∃ actions : List Action, Schedule.elapse gap s = actions.foldl act s :=
  Schedule.exists_actions_elapse exists_action_turn (fun gap _ => ⟨.pass gap, rfl⟩) gap s

/-- Letting the reader and the calls run until none can go on is a sequence of actions. -/
theorem exists_actions_settle (s : Link) :
    ∃ actions : List Action, Schedule.settle s = actions.foldl act s :=
  Schedule.exists_actions_run exists_action_turn (Schedule.work s) s

/-- What an action brings about for the handlers of statements. -/
def happensAt (s : Link) : Action → Option Happening
  | .turn actor => s.happening? actor
  | _ => none

/-- What happens in the course of a run. -/
def trace (s : Link) : List Action → List Happening
  | [] => []
  | action :: actions => (s.happensAt action).toList ++ (s.act action).trace actions

/-- A property of links holds all along a run. -/
def Throughout (P : Link → Prop) (s : Link) : List Action → Prop
  | [] => P s
  | action :: actions => P s ∧ (s.act action).Throughout P actions

/-- Whether something holds throughout a run can be tested. -/
instance decidableThroughout (P : Link → Prop) [DecidablePred P] (s : Link) :
    (actions : List Action) → Decidable (s.Throughout P actions)
  | [] => inferInstanceAs (Decidable (P s))
  | action :: actions =>
    have := decidableThroughout P (s.act action) actions
    inferInstanceAs (Decidable (P s ∧ (s.act action).Throughout P actions))

variable {s : Link} {key : Nat} {account : Account}

/-! ### What does not concern the handlers -/

/-- What arrives does not show. -/
theorem custody_arrive (s : Link) (item : Inbound) : (s.arrive item).custody = s.custody :=
  congrArg Roster.custody (s.roster_arrive item)

/-- The mode of the stream does not show. -/
theorem custody_setMode (s : Link) (mode : StreamMode) : (s.setMode mode).custody = s.custody :=
  congrArg Roster.custody (s.roster_setMode mode)

/-- A row that a caller takes does not show. -/
theorem custody_next (s : Link) (channel : Nat) : (s.next channel).2.custody = s.custody := by
  rw [next_snd]
  exact s.custody_changeChannel_of_entry channel fun c _ => c.take_entry

/-- Ids that are allocated do not show. -/
theorem custody_nextIds (s : Link) (count : Nat) : (s.nextIds count).2.custody = s.custody :=
  congrArg Roster.custody (s.roster_nextIds count)

/-- The time does not show. -/
theorem custody_pass (s : Link) (gap : Nat) : (s.pass gap).custody = s.custody :=
  congrArg Roster.custody (s.roster_pass gap)

/-! ### Starting calls -/

/-- A call that brings no handler of a statement leaves the custody sound. -/
theorem start_sound (hc : s.custody.Sound key account) (label : Option Nat) {stage : Stage}
    (hplain : stage.handler? = none) : (s.addTask label stage).custody.Sound key account := by
  rw [custody_addTask]
  exact hc.addCall stage hplain

/-- A statement is opened together with the call that brings its handler. -/
theorem statement_sound (hc : s.custody.Sound key account) (label : Nat) (frame : Frame)
    (id : UInt32) (capacity : Nat) (bound : Duration) :
    (s.act (.statement label frame id capacity bound)).custody.Sound key account := by
  have hlength : s.channels.length = s.custody.entries.length := by simp [custody]
  unfold act start
  dsimp only
  rw [custody_addTask, custody_addChannel, hlength]
  refine hc.open_carried id ?_
  rw [List.countP_append]
  by_cases hkey : key = s.custody.entries.length
  · simp [hkey, Stage.handler?, Handler.statement?]
  · simp [hkey, Stage.handler?, Handler.statement?, Ne.symm hkey]

/-! ### The end of a link that nobody uses -/

/-- The account stays sound when the link is released. -/
theorem releaseUnused_sound (hc : s.custody.Sound key account) :
    s.releaseUnused.custody.Sound key account := by
  unfold releaseUnused
  split
  · exact hc
  · dsimp only
    split
    · rw [custody_stopKeepAlive]
      exact hc
    · rw [custody_fail, custody_stopKeepAlive]
      exact hc.fail

/-- The account stays sound when a call is cancelled. -/
theorem cancel_sound (hc : s.custody.Sound key account) (label : Nat) :
    ((s.cancel? label).getD s).custody.Sound key account := by
  unfold cancel?
  cases s.tasks.findIdx? fun task => task.label == some label && !task.stage.isEnded with
  | none => exact hc
  | some t =>
    cases htask : s.tasks[t]? with
    | none => simpa [htask] using hc
    | some task =>
      have hstage : s.custody.stages[t]? = some task.stage := by simp [custody, htask]
      have hdropped : (s.dropTask t task.stage).custody.Sound key account :=
        hc.callStep hstage (s.dropTask_step t)
      simpa [htask] using releaseUnused_sound (s := { s.dropTask t task.stage with
        ready := (s.dropTask t task.stage).ready.filter (· != Actor.task t) }) hdropped

/-! ### Turns -/

/-- A turn keeps the custody sound. -/
theorem turnOf_sound (hc : s.custody.Sound key account) (hdistinct : s.Distinct) (actor : Actor) :
    (s.turnOf actor).custody.Sound key (account.noteAll key (s.happening? actor)) := by
  have hwhole (next : Link × Bool) {account : Account} (h : next.1.custody.Sound key account) :
      (if next.2 then { next.1 with ready := actor :: next.1.ready.erase actor }
        else next.1).releaseUnused.custody.Sound key account := by
    refine releaseUnused_sound ?_
    split
    · exact h
    · exact h
  cases actor with
  | reader =>
    refine hwhole ({ s with ready := s.ready.erase .reader } : Link).readerTurn ?_
    exact readerTurn_sound (s := { s with ready := s.ready.erase .reader }) hc
      ⟨hdistinct.ids, hdistinct.replies⟩
  | task t =>
    refine hwhole (({ s with ready := s.ready.erase (.task t) } : Link).taskTurn t) ?_
    cases htask : s.tasks[t]? with
    | none =>
      have hnothing : s.happening? (.task t) = none := by
        dsimp only [happening?]
        rw [htask]
        split <;> rfl
      have hsame : (({ s with ready := s.ready.erase (.task t) } : Link).taskTurn t).1.custody =
          s.custody := by
        unfold taskTurn
        dsimp only
        rw [htask]
        rfl
      rw [hnothing, hsame]
      exact hc
    | some task =>
      have hstage : s.custody.stages[t]? = some task.stage := by simp [custody, htask]
      exact hc.callStep hstage
        (taskTurn_step ({ s with ready := s.ready.erase (.task t) } : Link) t htask)

/-- Any action keeps the custody sound. -/
theorem act_sound (hc : s.custody.Sound key account) (hdistinct : s.Distinct) (action : Action) :
    (s.act action).custody.Sound key (account.noteAll key (s.happensAt action)) := by
  have hsame {next : Link} (h : next.custody = s.custody) : next.custody.Sound key account := by
    rw [h]
    exact hc
  cases action with
  | arrive item => exact hsame (s.custody_arrive item)
  | setMode mode => exact hsame (s.custody_setMode mode)
  | call label call hplain => exact start_sound hc (some label) hplain
  | statement label frame id capacity bound =>
    exact statement_sound hc label frame id capacity bound
  | reply label frame kind => exact start_sound (s := s.addReply kind) hc (some label) rfl
  | pull label channel pull bound =>
    dsimp only [act]
    unfold startPull
    split
    · exact hc
    · exact start_sound hc (some label) rfl
  | watch label reply bound => exact start_sound hc (some label) rfl
  | next channel => exact hsame (s.custody_next channel)
  | dropResponse channel => exact hsame (s.custody_changeChannel_drop channel)
  | cancel label => exact cancel_sound hc label
  | allocate count => exact hsame (s.custody_nextIds count)
  | markOpen => exact hsame s.custody_markOpen
  | giveAway => exact releaseUnused_sound (s := { s with isHeld := false }) hc
  | pass gap => exact hsame (s.custody_pass gap)
  | turn actor => exact turnOf_sound hc hdistinct actor

/-- A run keeps the custody sound. -/
theorem sound_run (hc : s.custody.Sound key account) (actions : List Action)
    (hdistinct : s.Throughout Distinct actions) :
    (actions.foldl act s).custody.Sound key
      ((s.trace actions).foldl (Account.note key) account) := by
  induction actions generalizing s account with
  | nil => exact hc
  | cons action actions ih =>
    obtain ⟨hfirst, hrest⟩ := hdistinct
    have hafter := ih (act_sound hc hfirst action) hrest
    rw [List.foldl_cons, trace, List.foldl_append]
    cases hhappens : s.happensAt action with
    | none =>
      rw [hhappens] at hafter
      exact hafter
    | some happening =>
      rw [hhappens] at hafter
      exact hafter

/-- Nothing has happened on a fresh link. -/
theorem sound_fresh (config : Config) (key : Nat) :
    (fresh config).custody.Sound key .empty := ⟨rfl, .absent rfl⟩

end BeeProtocol.Link
