import BeeProtocol.Proofs.Link.Roster
import Mathlib.Logic.Function.Iterate

/-!
# What the functions of a link change

Most functions of a link touch a few parts of it and wake those whom the change concerns. Each of
them is told here once: the link with those parts changed, and perhaps more actors that can go on.
What a roster or any other view of the link shows of a function follows from that.
-/

namespace BeeProtocol

/-- What is put behind the rest when an item arrives: a chunk without bytes is nothing. -/
def Inbound.arrivals : Inbound → List Inbound
  | .bytes [] => []
  | item => [item]

/-- Anything but a chunk without bytes is put behind the rest. -/
theorem Inbound.arrivals_of_ne {item : Inbound} (h : item = .bytes [] → False) :
    item.arrivals = [item] := by
  unfold arrivals
  split
  · exact absurd rfl h
  · rfl

namespace Link

variable {s next last : Link} {actor : Actor} {t : Nat}

/-- Another link that differs only in that more actors may have been woken. -/
def Wakes (s next : Link) : Prop :=
  ∃ ready, next = { s with ready := ready } ∧ ∀ actor ∈ s.ready, actor ∈ ready

namespace Wakes

/-- Nobody need be woken. -/
theorem refl (s : Link) : s.Wakes s := ⟨s.ready, rfl, fun _ h => h⟩

/-- Wakes add up. -/
theorem trans (h : s.Wakes next) (h' : next.Wakes last) : s.Wakes last := by
  obtain ⟨ready, rfl, hkept⟩ := h
  obtain ⟨ready', rfl, hkept'⟩ := h'
  exact ⟨ready', rfl, fun actor hmem => hkept' actor (hkept actor hmem)⟩

/-- Nobody falls asleep. -/
theorem mem_ready (h : s.Wakes next) (hmem : actor ∈ s.ready) : actor ∈ next.ready := by
  obtain ⟨ready, rfl, hkept⟩ := h
  exact hkept actor hmem

/-- What does not depend on who can go on is the same. -/
theorem view {α : Type} {f : Link → α} (h : s.Wakes next)
    (hview : ∀ ready, f { s with ready := ready } = f s) : f next = f s := by
  obtain ⟨ready, rfl, -⟩ := h
  exact hview ready

/-- A roster does not show who was woken. -/
theorem roster (h : s.Wakes next) : next.roster = s.roster := h.view fun _ => rfl

/-- The writer is left alone. -/
theorem writer (h : s.Wakes next) : next.writer = s.writer := h.view fun _ => rfl

/-- The calls are left alone. -/
theorem tasks (h : s.Wakes next) : next.tasks = s.tasks := h.view fun _ => rfl

/-- Who holds the link is left alone. -/
theorem isHeld (h : s.Wakes next) : next.isHeld = s.isHeld := h.view fun _ => rfl

/-- No time passes. -/
theorem now (h : s.Wakes next) : next.now = s.now := h.view fun _ => rfl

end Wakes

/-! ### Waking -/

/-- Waking somebody lets nobody fall asleep. -/
theorem mem_ready_wake (h : actor ∈ s.ready) (who : Actor) : actor ∈ (s.wake who).ready := by
  unfold wake
  split
  · exact h
  · exact List.mem_append_left _ h

/-- Who is woken can go on. -/
theorem mem_ready_wake_self (s : Link) (who : Actor) : who ∈ (s.wake who).ready := by
  unfold wake
  split
  · rename_i hready
    simpa using hready
  · exact List.mem_append_right _ (List.mem_singleton_self who)

/-- Waking somebody changes only who can take a turn. -/
theorem wake_eq (s : Link) (who : Actor) : ∃ ready, s.wake who = { s with ready := ready } := by
  unfold wake
  split
  · exact ⟨s.ready, rfl⟩
  · exact ⟨_, rfl⟩

/-- Waking somebody changes nothing else. -/
theorem wakes_wake (s : Link) (who : Actor) : s.Wakes (s.wake who) := by
  obtain ⟨ready, hwake⟩ := s.wake_eq who
  refine ⟨ready, hwake, fun other hmem => ?_⟩
  have hkept := mem_ready_wake hmem who
  rwa [hwake] at hkept

/-- Waking several tasks wakes each of them and changes nothing else. -/
theorem foldl_wake (woken : List (Task × Nat)) (s : Link) :
    s.Wakes (woken.foldl (fun s (_, key) => s.wake (.task key)) s) ∧
      ∀ task t, (task, t) ∈ woken →
        .task t ∈ (woken.foldl (fun s (_, key) => s.wake (.task key)) s).ready := by
  induction woken generalizing s with
  | nil => exact ⟨.refl s, fun _ _ h => by cases h⟩
  | cons first woken ih =>
    obtain ⟨hrest, hwoken⟩ := ih (s.wake (.task first.2))
    refine ⟨(s.wakes_wake _).trans hrest, fun task t hmem => ?_⟩
    rcases List.mem_cons.mp hmem with rfl | hmem
    · exact hrest.mem_ready (mem_ready_wake_self s _)
    · exact hwoken task t hmem

/-- Waking the tasks at some stages changes nothing else. -/
theorem wakes_wakeTasks (s : Link) (test : Stage → Bool) : s.Wakes (s.wakeTasks test) :=
  (foldl_wake (s.tasks.zipIdx.filter fun (task, _) => test task.stage) s).1

/-- Waking the tasks at some stages changes only who can take a turn. -/
theorem wakeTasks_eq (s : Link) (test : Stage → Bool) :
    ∃ ready, s.wakeTasks test = { s with ready := ready } := by
  obtain ⟨ready, hwake, -⟩ := s.wakes_wakeTasks test
  exact ⟨ready, hwake⟩

/-- A task at one of the stages is woken. -/
theorem mem_ready_wakeTasks_of_test {stage : Stage} (h : s.roster.stages[t]? = some stage)
    (test : Stage → Bool) (htest : test stage) : .task t ∈ (s.wakeTasks test).ready := by
  obtain ⟨task, htask, rfl⟩ : ∃ task, s.tasks[t]? = some task ∧ task.stage = stage := by
    simpa [Link.roster] using h
  refine (foldl_wake (s.tasks.zipIdx.filter fun (task, _) => test task.stage) s).2 task t ?_
  exact List.mem_filter.mpr ⟨List.mk_mem_zipIdx_iff_getElem?.mpr htask, htest⟩

variable (s)

/-- A roster does not show who is woken. -/
@[simp] theorem roster_wake (who : Actor) : (s.wake who).roster = s.roster :=
  (s.wakes_wake who).roster

/-- A roster does not show which tasks are woken. -/
@[simp] theorem roster_wakeTasks (test : Stage → Bool) : (s.wakeTasks test).roster = s.roster :=
  (s.wakes_wakeTasks test).roster

/-! ### Calls -/

/-- A change of one task moves its stage alone. -/
theorem stages_modify (tasks : List Task) (t : Nat) (stage : Stage) :
    (tasks.modify t fun task => { task with stage := stage }).map (·.stage) =
      (tasks.map (·.stage)).set t stage := by
  apply List.ext_getElem?
  intro i
  simp only [List.getElem?_map, List.getElem?_modify, List.getElem?_set, List.length_map]
  by_cases hi : t = i
  · subst hi
    by_cases ht : t < tasks.length <;> simp [ht]
  · simp [hi]

/-- A call that is put at a stage moves there. -/
@[simp] theorem roster_setStage (t : Nat) (stage : Stage) :
    (s.setStage t stage).roster = s.roster.move t stage := by
  simp only [Link.roster, setStage, stages_modify, Roster.move, isClosed]

/-- A call that ends is put at its last stage and reports to whoever has called. -/
theorem conclude_eq_setStage (t : Nat) (result : LinkResult) :
    s.conclude t result =
      { s.setStage t .ended with
        finished := s.finished ++
          ((s.tasks[t]?).bind (·.label)).toList.map fun label => (label, result) } := by
  unfold conclude
  cases htask : s.tasks[t]? with
  | none =>
    have hsame : s.setStage t .ended = s := by
      rw [setStage, List.modify_eq_self (List.getElem?_eq_none_iff.mp htask)]
    rw [hsame]
    simp
  | some task => rfl

/-- A call that ends reports to whoever has called. -/
theorem conclude_eq {t : Nat} {task : Task} (htask : s.tasks[t]? = some task)
    (result : LinkResult) :
    s.conclude t result =
      { s with
        tasks := s.tasks.set t { task with stage := .ended }
        finished := s.finished ++ task.label.toList.map fun label => (label, result) } := by
  rw [conclude_eq_setStage, setStage, List.modify_eq_set_getElem?, htask]
  rfl

/-- A call that ends moves to its last stage. -/
@[simp] theorem roster_conclude (t : Nat) (result : LinkResult) :
    (s.conclude t result).roster = s.roster.move t .ended := by
  rw [conclude_eq_setStage]
  exact s.roster_setStage t .ended

/-- A task that is added is woken. -/
theorem wakes_addTask (label : Option Nat) (stage : Stage) :
    Wakes { s with tasks := s.tasks ++ [Task.mk label stage false] } (s.addTask label stage) :=
  wakes_wake _ _

/-- A task that is added stands at its stage. -/
@[simp] theorem roster_addTask (label : Option Nat) (stage : Stage) :
    (s.addTask label stage).roster = { s.roster with stages := s.roster.stages ++ [stage] } := by
  rw [(s.wakes_addTask label stage).roster]
  simp [Link.roster, isClosed]

/-! ### Statements and replies -/

/-- A change of a channel changes it in its place. -/
theorem wakes_changeChannel (key : Nat) (change : Channel → Channel) :
    Wakes { s with channels := s.channels.modify key change } (s.changeChannel key change) := by
  unfold changeChannel
  rw [List.modify_eq_set_getElem?]
  cases s.channels[key]? with
  | none => exact .refl s
  | some before =>
    let changed : Link := { s with channels := s.channels.set key (change before) }
    have htold : changed.Wakes (if before.tellsCallers (change before) then
        changed.wakeTasks (·.isPulling key) else changed) := by
      split
      · exact wakes_wakeTasks changed _
      · exact .refl changed
    dsimp only
    split
    · exact htold.trans (wakes_wake _ _)
    · exact htold

/-- A change of the handler of a reply changes it in its place. -/
theorem wakes_changeReply (key : Nat) (change : ReplyHandler → ReplyHandler) :
    Wakes { s with replies := s.replies.modify key change } (s.changeReply key change) := by
  unfold changeReply
  rw [List.modify_eq_set_getElem?]
  cases s.replies[key]? with
  | none => exact .refl s
  | some before =>
    dsimp only
    split
    · exact wakes_wakeTasks _ _
    · exact .refl _

/-- The channel of a roster changes as that of its link. -/
@[simp] theorem roster_changeChannel (key : Nat) (change : Channel → Channel) :
    (s.changeChannel key change).roster = s.roster.change key change :=
  (s.wakes_changeChannel key change).roster

/-- The reply of a roster changes as that of its link. -/
@[simp] theorem roster_changeReply (key : Nat) (change : ReplyHandler → ReplyHandler) :
    (s.changeReply key change).roster = s.roster.changeReply key change :=
  (s.wakes_changeReply key change).roster

/-- A caller that takes the next row without waiting changes the channel alone. -/
theorem next_snd (channel : Nat) :
    (s.next channel).2 = s.changeChannel channel fun c => c.take.2 := by
  unfold Link.next changeChannel
  cases hchannel : s.channels[channel]? <;> rfl

/-! ### Handlers that wait -/

/-- Letting go of a handler changes what it stands for. -/
theorem wakes_letGo (handler : Handler) :
    Wakes
      { s with
        channels := (s.roster.letGo handler).channels
        replies := (s.roster.letGo handler).replies }
      (s.letGo handler) := by
  cases handler with
  | statement key => exact s.wakes_changeChannel key _
  | reply key => exact s.wakes_changeReply key _

/-- A roster lets go of a handler as its link does. -/
@[simp] theorem roster_letGo (handler : Handler) :
    (s.letGo handler).roster = s.roster.letGo handler := by
  cases handler with
  | statement key => exact s.roster_changeChannel key _
  | reply key => exact s.roster_changeReply key _

/-- A roster takes off a handler as its link does. -/
@[simp] theorem roster_unregister (handler : Handler) :
    (s.unregister handler).roster = s.roster.unregister handler := rfl

/-- A closed link registers no handler. -/
theorem register_of_isClosed (h : s.isClosed = true) (handler : Handler) :
    s.register handler = s.letGo handler := if_pos h

/-- An open link registers a handler behind the others. -/
theorem register_of_open (h : s.isClosed = false) (handler : Handler) :
    s.register handler = { s with pending := s.pending ++ [handler] } := if_neg (by simp [h])

/-- An open link puts a handler back in front of the others. -/
theorem requeue_of_open (h : s.isClosed = false) (handler : Handler) :
    s.requeue handler = { s with pending := handler :: s.pending } := if_neg (by simp [h])

/-- An open link registers a handler behind the others. -/
theorem roster_register (h : s.isClosed = false) (handler : Handler) :
    (s.register handler).roster =
      { s.roster with pending := s.roster.pending ++ [handler] } := by
  rw [s.register_of_open h]
  rfl

/-! ### The end of a link -/

/-- Letting go of several handlers changes what they stand for. -/
theorem wakes_foldl_letGo (handlers : List Handler) (s : Link) :
    Wakes
      { s with
        channels := (handlers.foldl Roster.letGo s.roster).channels
        replies := (handlers.foldl Roster.letGo s.roster).replies }
      (handlers.foldl (fun s handler => s.letGo handler) s) := by
  induction handlers generalizing s with
  | nil => exact .refl s
  | cons handler handlers ih =>
    have hrest := ih (s.letGo handler)
    obtain ⟨ready, hfirst, hkept⟩ := s.wakes_letGo handler
    rw [roster_letGo, hfirst] at hrest
    rw [List.foldl_cons, List.foldl_cons, hfirst]
    refine Wakes.trans ?_ hrest
    exact ⟨ready, rfl, hkept⟩

/-- Closing a link changes its phase and its queue, and what the handlers there stand for. -/
theorem wakes_shutdown :
    Wakes
      { s with
        phase := .closed
        pending := s.roster.shut.pending
        channels := s.roster.shut.channels
        replies := s.roster.shut.replies }
      s.shutdown := by
  cases hclosed : s.isClosed with
  | true =>
    have hphase : s.phase = .closed := by simpa [isClosed] using hclosed
    have hshut : s.roster.shut = s.roster := if_pos hclosed
    have hsame : s.shutdown = s := if_pos hclosed
    rw [hshut, hsame, ← hphase]
    exact .refl s
  | false =>
    let emptied : Link := { s with phase := .closed, pending := [] }
    have hnot : ¬ s.isClosed = true := by simp [hclosed]
    have hshut : s.roster.shut = s.pending.foldl Roster.letGo emptied.roster := if_neg hnot
    have hsame : s.shutdown = s.pending.foldl (fun s handler => s.letGo handler) emptied :=
      if_neg hnot
    obtain ⟨channels, replies, hfold⟩ := Roster.foldl_letGo_eq s.pending emptied.roster
    have hwakes := wakes_foldl_letGo s.pending emptied
    rw [hfold] at hwakes
    rw [hshut, hsame, hfold]
    exact hwakes

/-- A reader that is to end is marked. -/
theorem wakes_stopReader :
    Wakes { s with reader := { s.reader with isAborted := s.roster.stop.isAborted } }
      s.stopReader := by
  have hreading : s.roster.reading = s.reader.stage := rfl
  unfold stopReader Roster.stop
  rw [hreading]
  cases s.reader.stage with
  | stopped => exact .refl s
  | _ => exact wakes_wake _ _

/-- A roster is closed as its link. -/
theorem roster_shutdown : s.shutdown.roster = s.roster.shut := by
  obtain ⟨pending, channels, replies, hshut⟩ := s.roster.shut_eq
  rw [s.wakes_shutdown.roster, hshut]
  rfl

/-- The reader of a roster is stopped as that of its link. -/
theorem roster_stopReader : s.stopReader.roster = s.roster.stop := by
  obtain ⟨isAborted, hstop, -⟩ := s.roster.stop_eq
  rw [s.wakes_stopReader.roster, hstop]
  rfl

/-- Failing a link closes it and stops its reader. -/
@[simp] theorem roster_fail : s.fail.roster = s.roster.shut.stop := by
  rw [fail, roster_stopReader, roster_shutdown]

/-- A link that fails is closed, its queue is emptied and its reader is to end. -/
theorem wakes_fail :
    Wakes
      { s with
        phase := .closed
        pending := s.roster.shut.pending
        channels := s.roster.shut.channels
        replies := s.roster.shut.replies
        reader := { s.reader with isAborted := s.roster.shut.stop.isAborted } }
      s.fail := by
  have hstop := s.shutdown.wakes_stopReader
  rw [roster_shutdown] at hstop
  obtain ⟨ready, hshut, hkept⟩ := s.wakes_shutdown
  rw [hshut] at hstop
  rw [fail, hshut]
  exact Wakes.trans ⟨ready, rfl, hkept⟩ hstop

/-- Marking a link open changes at most its phase. -/
theorem markOpen_eq :
    s.markOpen = { s with phase := if s.phase = .connecting then .opened else s.phase } := by
  unfold markOpen
  split <;> rfl

/-- A roster does not show that a link was marked open. -/
@[simp] theorem roster_markOpen : s.markOpen.roster = s.roster := by
  unfold markOpen
  split
  · rename_i hphase
    simp [Link.roster, isClosed, hphase]
  · rfl

/-! ### Writing a frame -/

/-- A call that leaves the line is taken off it. -/
theorem wakes_leaveLine (t : Nat) :
    Wakes { s with line := s.line.filter (· != t) } (s.leaveLine t) := by
  unfold leaveLine
  dsimp only
  split
  · split
    · exact wakes_wake _ _
    · exact .refl _
  · exact .refl _

/-- The line of a roster is left as that of its link. -/
@[simp] theorem roster_leaveLine (t : Nat) : (s.leaveLine t).roster = s.roster.leave t :=
  (s.wakes_leaveLine t).roster

/-- What a call gives up. -/
theorem wakes_giveUp (purpose : Purpose) :
    Wakes
      { s with
        channels := (s.roster.giveUp purpose).channels
        pending := (s.roster.giveUp purpose).pending }
      (s.giveUp purpose) := by
  cases purpose with
  | statement key => exact s.wakes_changeChannel key _
  | _ => exact .refl _

/-- A roster gives up what its link does. -/
@[simp] theorem roster_giveUp (purpose : Purpose) :
    (s.giveUp purpose).roster = s.roster.giveUp purpose := by
  cases purpose with
  | statement key => exact s.roster_changeChannel key _
  | _ => rfl

/-- A call that fails gives up its purpose and ends. -/
@[simp] theorem roster_failSend (t : Nat) (purpose : Purpose) (reason : ClientError) :
    (s.failSend t purpose reason).roster = (s.roster.giveUp purpose).move t .ended := by
  rw [failSend, roster_conclude, roster_giveUp]

/-- A call that cannot write closes the link. -/
@[simp] theorem roster_failWrite (t : Nat) (purpose : Purpose) (reason : ProtocolError) :
    (s.failWrite t purpose reason).roster =
      (((s.roster.leave t).shut.stop).giveUp purpose).move t .ended := by
  rw [failWrite, roster_failSend, roster_fail, roster_leaveLine]

/-- A call that starts to write joins the line, unless its frame is too large: it fails then and
lets go of its handler. -/
theorem beginSend_cases (t : Nat) (purpose : Purpose) (frame : Frame) (handler : Option Handler) :
    frame.payload.length ≤ s.codec.limit ∧ (s.beginSend t purpose frame handler).1 =
        (s.joinLine t).setStage t (.sending purpose (.inLine frame handler)) ∨
      s.codec.limit < frame.payload.length ∧ ∃ reason, (s.beginSend t purpose frame handler).1 =
        (handler.elim s s.letGo).failSend t purpose reason := by
  unfold beginSend
  dsimp only
  split
  · rename_i hlarge
    exact .inr ⟨hlarge, _, rfl⟩
  · rename_i hfits
    exact .inl ⟨Nat.le_of_not_lt hfits, rfl⟩

/-- A call that starts to write joins the line, or lets go of its handler and ends. -/
theorem roster_beginSend (t : Nat) (purpose : Purpose) (frame : Frame) (handler : Option Handler) :
    (s.beginSend t purpose frame handler).1.roster =
        { s.roster with line := s.roster.line ++ [t] }.move t
          (.sending purpose (.inLine frame handler)) ∨
      (s.beginSend t purpose frame handler).1.roster =
        ((handler.elim s.roster s.roster.letGo).giveUp purpose).move t .ended := by
  rcases s.beginSend_cases t purpose frame handler with ⟨-, hsend⟩ | ⟨-, reason, hsend⟩
  · rw [hsend, roster_setStage]
    exact .inl rfl
  · rw [hsend, roster_failSend]
    cases handler with
    | none => exact .inr rfl
    | some handler =>
      rw [Option.elim_some, Option.elim_some, roster_letGo]
      exact .inr rfl

/-! ### Pings at intervals -/

/-- Nobody but the task that sends pings notices when it is ended. -/
theorem stopKeepAlive_cases :
    s.keepAlive = none ∧ s.stopKeepAlive = s ∨ ∃ key, s.keepAlive = some key ∧
      Wakes
        { s with
          keepAlive := none
          tasks := s.tasks.modify key fun task => { task with isAborted := true } }
        s.stopKeepAlive := by
  unfold stopKeepAlive
  cases hkeep : s.keepAlive with
  | none => exact .inl ⟨rfl, rfl⟩
  | some key => exact .inr ⟨key, rfl, wakes_wake _ _⟩

/-- A task is started if an interval is set, and an earlier one is ended then. -/
theorem startKeepAlive_cases :
    (∀ period, s.config.keepAliveInterval = some period → period.nanos = 0) ∧
        s.startKeepAlive = s ∨
      ∃ period, (s.config.keepAliveInterval = some period ∧ period.nanos ≠ 0) ∧
        s.startKeepAlive =
          { (s.addTask none (.called (.keepAlive period))).stopKeepAlive with
            keepAlive := some s.tasks.length } := by
  unfold startKeepAlive
  cases hinterval : s.config.keepAliveInterval with
  | none => exact .inl ⟨nofun, rfl⟩
  | some period =>
    dsimp only
    split
    · rename_i hzero
      refine .inl ⟨fun other hother => ?_, rfl⟩
      rwa [← Option.some.inj hother]
    · rename_i hpositive
      exact .inr ⟨period, ⟨rfl, hpositive⟩, rfl⟩

/-- A roster does not show that a task is to end. -/
@[simp] theorem roster_stopKeepAlive : s.stopKeepAlive.roster = s.roster := by
  rcases s.stopKeepAlive_cases with ⟨-, hsame⟩ | ⟨key, -, hwakes⟩
  · rw [hsame]
  · rw [hwakes.roster]
    have hstages : (s.tasks.modify key fun task => { task with isAborted := true }).map (·.stage) =
        s.tasks.map (·.stage) := by
      apply List.ext_getElem?
      intro i
      simp only [List.getElem?_map, List.getElem?_modify]
      by_cases hi : key = i <;> cases s.tasks[i]? <;> simp [hi]
    simp only [Link.roster, hstages, isClosed]

/-- Starting to send pings may add a call. -/
theorem roster_startKeepAlive :
    s.startKeepAlive.roster = s.roster ∨
      ∃ period, s.startKeepAlive.roster =
        { s.roster with stages := s.roster.stages ++ [.called (.keepAlive period)] } := by
  rcases s.startKeepAlive_cases with ⟨-, hsame⟩ | ⟨period, -, hstarted⟩
  · exact .inl (by rw [hsame])
  · refine .inr ⟨period, ?_⟩
    rw [hstarted]
    exact (roster_stopKeepAlive _).trans (s.roster_addTask none _)

/-! ### The reader -/

/-- The reader of a roster is put at a stage as that of its link. -/
@[simp] theorem roster_setReader (stage : ReaderStage) :
    (s.setReader stage).roster = { s.roster with reading := stage } := rfl

/-! ### What the outside does -/

/-- What arrives is put behind what has arrived before. -/
theorem wakes_arrive (item : Inbound) :
    Wakes { s with inbound := s.inbound ++ item.arrivals } (s.arrive item) := by
  unfold arrive
  split
  · rw [show Inbound.arrivals (.bytes []) = [] from rfl, List.append_nil]
    exact .refl s
  · rename_i hsome
    rw [item.arrivals_of_ne hsome]
    dsimp only
    split
    · exact wakes_wake _ _
    · exact .refl _

/-- The stream changes its mode. -/
theorem wakes_setMode (mode : StreamMode) :
    Wakes { s with writer := { s.writer with mode := mode } } (s.setMode mode) := by
  unfold setMode
  dsimp only
  split
  · exact wakes_wake _ _
  · exact .refl _

/-- Allocating ids moves the latest one on. -/
theorem nextIds_eq (count : Nat) :
    (s.nextIds count).2 = { s with lastId := followingId^[count] s.lastId } := by
  induction s, count using nextIds.induct with
  | case1 s => rfl
  | case2 s => rfl
  | case3 s count ih => exact ih

/-- Time passes. -/
theorem wakes_pass (gap : Nat) : Wakes { s with now := s.now + gap } (s.pass gap) := by
  unfold pass
  exact wakes_wakeTasks _ _

/-- A link that nobody uses ends its pings, and is closed unless one is under way. -/
theorem releaseUnused_cases :
    s.releaseUnused = s ∨ s.releaseUnused = s.stopKeepAlive ∨
      s.releaseUnused = s.stopKeepAlive.fail := by
  unfold releaseUnused
  split
  · exact .inl rfl
  · dsimp only
    split
    · exact .inr (.inl rfl)
    · exact .inr (.inr rfl)

/-- A roster does not show what arrives. -/
theorem roster_arrive (item : Inbound) : (s.arrive item).roster = s.roster :=
  (s.wakes_arrive item).roster

/-- A roster does not show the mode of the stream. -/
theorem roster_setMode (mode : StreamMode) : (s.setMode mode).roster = s.roster :=
  (s.wakes_setMode mode).roster

/-- A roster does not show which ids were allocated. -/
theorem roster_nextIds (count : Nat) : (s.nextIds count).2.roster = s.roster := by
  rw [nextIds_eq]
  rfl

/-- A roster does not show the time. -/
theorem roster_pass (gap : Nat) : (s.pass gap).roster = s.roster := (s.wakes_pass gap).roster

/-- A link that nobody uses may be closed. -/
theorem roster_releaseUnused :
    s.releaseUnused.roster = s.roster ∨ s.releaseUnused.roster = s.roster.shut.stop := by
  rcases s.releaseUnused_cases with hsame | hsame | hsame <;> rw [hsame]
  · exact .inl rfl
  · exact .inl s.roster_stopKeepAlive
  · right
    rw [roster_fail, roster_stopKeepAlive]

end Link

end BeeProtocol
