import BeeProtocol.Proofs.Link.Changes
import BeeProtocol.Proofs.Link.Ledger
import BeeProtocol.Proofs.Link.Sparing

/-!
# What a turn leaves steady

A call that takes its turn leaves the clock, the other calls and the task that sends pings as they
are, and nobody who was woken is forgotten. There are two exceptions: a call that closes the link
ends the task that sends pings, and a handshake that is accepted starts one in its place.
-/

namespace BeeProtocol

/-- What a task is apart from its stage: whom it reports to, and whether it ends at its next turn.
-/
def Task.mark (task : Task) : Option Nat × Bool := (task.label, task.isAborted)

/-- What a link is set to apart from what goes on over it. -/
structure Setting where
  /-- The time. -/
  now : Nat
  /-- The settings. -/
  config : Config
  /-- Whether the link has its owner. -/
  isHeld : Bool
  /-- The task that sends pings. -/
  keepAlive : Option Nat
  /-- The marks of the tasks. -/
  marks : List (Option Nat × Bool)

namespace Link

/-- The setting of a link. -/
def setting (s : Link) : Setting := ⟨s.now, s.config, s.isHeld, s.keepAlive, s.tasks.map Task.mark⟩

/-- Only the stage of one task is another, and the other tasks that were woken still are. -/
structure Steady (s : Link) (t : Nat) (next : Link) : Prop where
  /-- The setting is the same. -/
  setting : next.setting = s.setting
  /-- All other tasks are as they were. -/
  others : ∀ u, u ≠ t → next.tasks[u]? = s.tasks[u]?
  /-- Other tasks that were woken still are. -/
  woken : ∀ u, u ≠ t → .task u ∈ s.ready → .task u ∈ next.ready

namespace Steady

variable {s next last : Link} {t : Nat}

/-- A link is steady if nothing is done. -/
theorem refl (s : Link) (t : Nat) : s.Steady t s := ⟨rfl, fun _ _ => rfl, fun _ _ h => h⟩

/-- Steady changes add up. -/
theorem trans (h : s.Steady t next) (h' : next.Steady t last) : s.Steady t last where
  setting := h'.setting.trans h.setting
  others u hu := (h'.others u hu).trans (h.others u hu)
  woken u hu hmem := h'.woken u hu (h.woken u hu hmem)

/-- A steady change takes no time. -/
theorem now (h : s.Steady t next) : next.now = s.now := congrArg Setting.now h.setting

/-- A steady change leaves the configuration. -/
theorem config (h : s.Steady t next) : next.config = s.config := congrArg Setting.config h.setting

/-- A steady change leaves the link with its owner. -/
theorem isHeld (h : s.Steady t next) : next.isHeld = s.isHeld := congrArg Setting.isHeld h.setting

/-- After a steady change the same task sends pings. -/
theorem keepAlive (h : s.Steady t next) : next.keepAlive = s.keepAlive :=
  congrArg Setting.keepAlive h.setting

/-- After a steady change every task has its label, and is told to end if it was before. -/
theorem marks (h : s.Steady t next) : next.tasks.map Task.mark = s.tasks.map Task.mark :=
  congrArg Setting.marks h.setting

/-- Waking others is steady. -/
theorem of_wakes (h : s.Wakes next) : s.Steady t next := by
  obtain ⟨ready, rfl, hkept⟩ := h
  exact ⟨rfl, fun _ _ => rfl, fun u _ hmem => hkept _ hmem⟩

/-- A change of what does not show, and then of who is woken. -/
theorem of_changed {changed : Link} (h : changed.Wakes next)
    (hsetting : changed.setting = s.setting) (htasks : changed.tasks = s.tasks)
    (hready : changed.ready = s.ready) : s.Steady t next := by
  have hchanged : s.Steady t changed :=
    ⟨hsetting, fun u _ => by rw [htasks], fun u _ hmem => by rwa [hready]⟩
  exact hchanged.trans (.of_wakes h)

end Steady

/-! ### Starting and ending the task that sends pings -/

section

variable {s next : Link} {t u : Nat}

/-- A task that nobody has called for and that was not told to end. -/
def IsPinger (s : Link) (u : Nat) : Prop := ∃ stage, s.tasks[u]? = some ⟨none, stage, false⟩

/-- Whether a task sends pings is a matter of its mark. -/
theorem isPinger_iff : s.IsPinger u ↔ (s.tasks.map Task.mark)[u]? = some (none, false) := by
  constructor
  · rintro ⟨stage, htask⟩
    rw [List.getElem?_map, htask]
    rfl
  · intro hmark
    obtain ⟨⟨label, stage, isAborted⟩, htask, hsame⟩ :=
      Option.map_eq_some_iff.mp ((List.getElem?_map ..).symm.trans hmark)
    obtain ⟨rfl, rfl⟩ := Prod.mk.inj hsame
    exact ⟨stage, htask⟩

/-- Who sends pings is one of the tasks. -/
theorem IsPinger.lt (h : s.IsPinger u) : u < s.tasks.length := by
  obtain ⟨stage, htask⟩ := h
  exact (List.getElem?_eq_some_iff.mp htask).1

/-- After a steady change the same tasks send pings. -/
theorem Steady.isPinger_iff (h : s.Steady t next) : next.IsPinger u ↔ s.IsPinger u := by
  rw [Link.isPinger_iff, Link.isPinger_iff, h.marks]

/-- A steady change adds no task. -/
theorem Steady.length (h : s.Steady t next) : next.tasks.length = s.tasks.length := by
  simpa using congrArg List.length h.marks

/-- What ending the task that sends pings leaves alone. -/
structure Stops (s next : Link) : Prop where
  /-- No time passes. -/
  now : next.now = s.now
  /-- The settings are the same. -/
  config : next.config = s.config
  /-- The owner is the same. -/
  isHeld : next.isHeld = s.isHeld
  /-- No task is known for sending pings. -/
  keepAlive : next.keepAlive = none
  /-- No task is added. -/
  length : next.tasks.length = s.tasks.length
  /-- All other tasks are as they were. -/
  others : ∀ u, s.keepAlive ≠ some u → next.tasks[u]? = s.tasks[u]?
  /-- Whoever else sends pings did so before. -/
  pingers : ∀ u, next.IsPinger u → s.IsPinger u ∧ s.keepAlive ≠ some u
  /-- Tasks that were woken still are. -/
  woken : ∀ u, .task u ∈ s.ready → .task u ∈ next.ready

/-- No task sends pings once the one that is known for it was ended. -/
theorem stops_stopKeepAlive (s : Link) : s.Stops s.stopKeepAlive := by
  rcases s.stopKeepAlive_cases with ⟨hnone, hsame⟩ | ⟨key, hkey, hwakes⟩
  · rw [hsame]
    exact ⟨rfl, rfl, rfl, hnone, rfl, fun _ _ => rfl, fun u h => ⟨h, by simp [hnone]⟩,
      fun _ h => h⟩
  · obtain ⟨ready, hstopped, hkept⟩ := hwakes
    rw [hstopped]
    have hother (u : Nat) (hu : s.keepAlive ≠ some u) :
        (s.tasks.modify key fun task => { task with isAborted := true })[u]? = s.tasks[u]? :=
      List.getElem?_modify_ne _ _ fun hsame => hu (hsame ▸ hkey)
    refine ⟨rfl, rfl, rfl, rfl, List.length_modify .., hother, ?_, fun u hmem => hkept _ hmem⟩
    rintro u ⟨stage, htask⟩
    dsimp only at htask
    by_cases hu : s.keepAlive = some u
    · obtain rfl := Option.some.inj (hkey.symm.trans hu)
      rw [List.getElem?_modify_eq] at htask
      obtain ⟨task, -, haborted⟩ := Option.map_eq_some_iff.mp htask
      simp at haborted
    · rw [hother u hu] at htask
      exact ⟨⟨stage, htask⟩, hu⟩

/-- What starting a task that sends pings in place of another one changes. -/
structure Starts (s : Link) (period : Duration) (next : Link) : Prop where
  /-- There is an interval for the pings. -/
  interval : s.config.keepAliveInterval = some period ∧ period.nanos ≠ 0
  /-- No time passes. -/
  now : next.now = s.now
  /-- The settings are the same. -/
  config : next.config = s.config
  /-- The owner is the same. -/
  isHeld : next.isHeld = s.isHeld
  /-- The task that sends pings is the last one. -/
  keepAlive : next.keepAlive = some s.tasks.length
  /-- One task is added. -/
  length : next.tasks.length = s.tasks.length + 1
  /-- The new task is about to begin. -/
  task : s.keepAlive ≠ some s.tasks.length →
    next.tasks[s.tasks.length]? = some ⟨none, .called (.keepAlive period), false⟩
  /-- Whoever else sends pings did so before and was not the task known for it. -/
  pingers : ∀ u, next.IsPinger u → u = s.tasks.length ∨ s.IsPinger u ∧ s.keepAlive ≠ some u
  /-- The new task was woken. -/
  woken : .task s.tasks.length ∈ next.ready

/-- An earlier task that sends pings is ended when one is started, if an interval is set. -/
theorem starts_startKeepAlive (s : Link) :
    (∀ period, s.config.keepAliveInterval = some period → period.nanos = 0) ∧
        s.startKeepAlive = s ∨ ∃ period, s.Starts period s.startKeepAlive := by
  refine s.startKeepAlive_cases.imp_right fun ⟨period, hinterval, hstarted⟩ => ⟨period, ?_⟩
  rw [hstarted]
  obtain ⟨ready, hadded, -⟩ := s.wakes_addTask none (.called (.keepAlive period))
  have hnew : .task s.tasks.length ∈ (s.addTask none (.called (.keepAlive period))).ready :=
    mem_ready_wake_self _ _
  have hstops := (s.addTask none (.called (.keepAlive period))).stops_stopKeepAlive
  generalize (s.addTask none (.called (.keepAlive period))).stopKeepAlive = stopped at hstops
  generalize s.addTask none (.called (.keepAlive period)) = added at hadded hnew hstops
  subst hadded
  refine ⟨hinterval, hstops.now, hstops.config, hstops.isHeld, rfl,
    hstops.length.trans (List.length_append ..), fun hother => ?_, fun u hpinger => ?_,
    hstops.woken _ hnew⟩
  · exact (hstops.others _ hother).trans (List.getElem?_concat_length ..)
  · obtain ⟨⟨stage, htask⟩, hother⟩ := hstops.pingers u hpinger
    rcases Nat.lt_or_ge u s.tasks.length with hlt | hge
    · exact .inr ⟨⟨stage, (List.getElem?_append_left hlt).symm.trans htask⟩, hother⟩
    · left
      have hlength := (List.getElem?_eq_some_iff.mp htask).1
      simp only [List.length_append, List.length_singleton] at hlength
      omega

end

variable (s : Link) (t : Nat)

/-! ### Statements, replies and handlers -/

/-- A change of a channel is steady. -/
theorem steady_changeChannel (key : Nat) (change : Channel → Channel) :
    s.Steady t (s.changeChannel key change) :=
  .of_changed (s.wakes_changeChannel key change) rfl rfl rfl

/-- A change of a reply is steady. -/
theorem steady_changeReply (key : Nat) (change : ReplyHandler → ReplyHandler) :
    s.Steady t (s.changeReply key change) :=
  .of_changed (s.wakes_changeReply key change) rfl rfl rfl

/-- Letting go of a handler is steady. -/
theorem steady_letGo (handler : Handler) : s.Steady t (s.letGo handler) :=
  .of_changed (s.wakes_letGo handler) rfl rfl rfl

/-- Giving up a purpose is steady. -/
theorem steady_giveUp (purpose : Purpose) : s.Steady t (s.giveUp purpose) :=
  .of_changed (s.wakes_giveUp purpose) rfl rfl rfl

/-- Registering a handler is steady. -/
theorem steady_register (handler : Handler) : s.Steady t (s.register handler) := by
  unfold register
  split
  · exact s.steady_letGo t handler
  · exact ⟨rfl, fun _ _ => rfl, fun _ _ h => h⟩

/-- Putting a handler back into the queue is steady. -/
theorem steady_requeue (handler : Handler) : s.Steady t (s.requeue handler) := by
  unfold requeue
  split
  · exact s.steady_letGo t handler
  · exact ⟨rfl, fun _ _ => rfl, fun _ _ h => h⟩

/-- Taking a handler off the queue is steady. -/
theorem steady_unregister (handler : Handler) : s.Steady t (s.unregister handler) :=
  ⟨rfl, fun _ _ => rfl, fun _ _ h => h⟩

/-- Marking a link open is steady. -/
theorem steady_markOpen : s.Steady t s.markOpen := by
  rw [markOpen_eq]
  exact ⟨rfl, fun _ _ => rfl, fun _ _ h => h⟩

/-! ### Closing the link -/

/-- Closing a link is steady. -/
theorem steady_shutdown : s.Steady t s.shutdown := .of_changed s.wakes_shutdown rfl rfl rfl

/-- Failing a link is steady. -/
theorem steady_fail : s.Steady t s.fail := .of_changed s.wakes_fail rfl rfl rfl

/-- A link that fails is closed. -/
theorem isClosed_fail : s.fail.isClosed := by
  have hshut : s.fail.roster.isClosed := by
    rw [roster_fail]
    unfold Roster.stop
    split <;> exact Roster.shut_isClosed _
  exact hshut

/-! ### What a call does to itself and to the line -/

/-- A task at another stage has the same mark. -/
theorem marks_modify (tasks : List Task) (stage : Stage) :
    (tasks.modify t fun task => { task with stage := stage }).map Task.mark =
      tasks.map Task.mark := by
  apply List.ext_getElem?
  intro u
  simp only [List.getElem?_map, List.getElem?_modify]
  by_cases hu : t = u <;> cases tasks[u]? <;> simp [hu, Task.mark]

/-- The stage of the call itself may be another one. -/
theorem steady_setStage (stage : Stage) : s.Steady t (s.setStage t stage) where
  setting := by
    change Setting.mk _ _ _ _ _ = _
    rw [setStage, marks_modify]
    rfl
  others u hu := List.getElem?_modify_ne _ _ (Ne.symm hu)
  woken _ _ h := h

/-- A call that ends is steady. -/
theorem steady_conclude (result : LinkResult) : s.Steady t (s.conclude t result) := by
  rw [conclude_eq_setStage]
  have hended := s.steady_setStage t .ended
  exact ⟨hended.setting, hended.others, hended.woken⟩

/-- Joining the line is steady. -/
theorem steady_joinLine : s.Steady t (s.joinLine t) := ⟨rfl, fun _ _ => rfl, fun _ _ h => h⟩

/-- A change of the writer is steady. -/
theorem steady_setWriter (writer : Writer) : s.Steady t { s with writer := writer } :=
  ⟨rfl, fun _ _ => rfl, fun _ _ h => h⟩

/-- Leaving the line is steady. -/
theorem steady_leaveLine : s.Steady t (s.leaveLine t) :=
  .of_changed (s.wakes_leaveLine t) rfl rfl rfl

/-- A call that fails with its purpose is steady. -/
theorem steady_failSend (purpose : Purpose) (reason : ClientError) :
    s.Steady t (s.failSend t purpose reason) :=
  (s.steady_giveUp t purpose).trans (steady_conclude _ t _)

/-- A call that fails to write is steady, although the link is closed then. -/
theorem steady_failWrite (purpose : Purpose) (reason : ProtocolError) :
    s.Steady t (s.failWrite t purpose reason) :=
  ((s.steady_leaveLine t).trans (steady_fail _ t)).trans (steady_failSend _ t purpose _)

/-! ### Writing a frame -/

/-- A call that wants to write is steady. -/
theorem steady_beginSend (purpose : Purpose) (frame : Frame) (handler : Option Handler) :
    s.Steady t (s.beginSend t purpose frame handler).1 := by
  rcases s.beginSend_cases t purpose frame handler with ⟨-, hsend⟩ | ⟨-, reason, hsend⟩ <;>
    rw [hsend]
  · exact (s.steady_joinLine t).trans (steady_setStage _ t _)
  · cases handler with
    | none => exact s.steady_failSend t purpose reason
    | some handler => exact (s.steady_letGo t handler).trans (steady_failSend _ t purpose reason)

/-- A call that gets the writer is steady. -/
theorem steady_enter (purpose : Purpose) (frame : Frame) (handler : Option Handler) :
    s.Steady t (s.enter t purpose frame handler).1 := by
  have hregister : s.Steady t (handler.elim s s.register) := by
    cases handler with
    | none => exact .refl s t
    | some handler => exact s.steady_register t handler
  unfold enter
  dsimp only
  split
  · exact (hregister.trans (steady_leaveLine _ t)).trans (steady_failSend _ t purpose _)
  · exact hregister.trans (steady_setStage _ t _)

/-- A call whose frame is out is steady. -/
theorem steady_afterSend (purpose : Purpose) : s.Steady t (s.afterSend t purpose).1 := by
  cases purpose with
  | plain => exact s.steady_conclude t _
  | reply key bound use => exact s.steady_setStage t _
  | statement key => exact s.steady_conclude t _
  | keepAlive period next => exact s.steady_setStage t _

/-- The turn of a call that writes is steady. -/
theorem steady_sendTurn (purpose : Purpose) (step : SendStep) :
    s.Steady t (s.sendTurn t purpose step).1 := by
  have hfails (reason : ProtocolError) (writer : Writer) :
      s.Steady t (failWrite { s with writer := writer } t purpose reason) :=
    (s.steady_setWriter t writer).trans (steady_failWrite _ t purpose reason)
  cases step with
  | inLine frame handler =>
    dsimp only [sendTurn]
    split
    · exact s.steady_enter t purpose frame handler
    · exact .refl s t
  | holding frame =>
    dsimp only [sendTurn]
    split
    · split
      · exact (s.steady_setWriter t _).trans (steady_setStage _ t _)
      · exact s.steady_failWrite t purpose _
    · split
      · exact s.steady_setWriter t _
      · exact s.steady_setWriter t _
      · exact hfails _ _
  | flushing =>
    dsimp only [sendTurn]
    split
    · exact ((s.steady_setWriter t _).trans (steady_leaveLine _ t)).trans
        (steady_afterSend _ t purpose)
    · exact s.steady_setWriter t _
    · exact hfails _ _

/-- The turn of a task that pauses between pings is steady. -/
theorem steady_pauseTurn (period : Duration) (due : Nat) :
    s.Steady t (s.pauseTurn t period due).1 := by
  unfold pauseTurn
  split
  · split
    · exact s.steady_setStage t _
    · exact s.steady_beginSend t _ _ _
  · exact .refl s t

/-! ### Waiting for replies and rows -/

/-- A call that gets no reply that accepts its handshake. -/
theorem steady_replyTurn (key : Nat) (bound : Duration) (use : ReplyUse) (deadline : Nat)
    (hrejected : s.isAcceptedAt (.replying key bound use deadline) = false) :
    s.Steady t (s.replyTurn t key bound use deadline) := by
  have hended (result : LinkResult) : s.Steady t ((s.unregister (.reply key)).conclude t result) :=
    (s.steady_unregister t _).trans (steady_conclude _ t _)
  unfold replyTurn
  split
  · rename_i message houtcome
    cases use with
    | request => exact hended _
    | handshake =>
      have hrefused : message.accepts = false := by simpa [isAcceptedAt, houtcome] using hrejected
      obtain ⟨error, -, -, hconcluded⟩ :=
        concludeHandshake_of_rejects (s.unregister (.reply key)) t hrefused
      dsimp only
      rw [hconcluded]
      exact hended _
  · exact hended _
  · split
    · exact hended _
    · exact .refl s t

/-- The turn of a call that watches a reply is steady. -/
theorem steady_watchTurn (key : Nat) (bound : Option Duration) (deadline : Option Nat) :
    s.Steady t (s.watchTurn t key bound deadline) := by
  unfold watchTurn
  split
  · exact s.steady_conclude t _
  · exact s.steady_conclude t _
  · split
    · exact s.steady_conclude t _
    · exact .refl s t
  · exact .refl s t

/-- The turn of a call on a response is steady. -/
theorem steady_pullTurn (key : Nat) (call : PullCall) : s.Steady t (s.pullTurn t key call).1 := by
  unfold pullTurn
  split
  · exact .refl s t
  · have hturned (change : Channel → Channel) : s.Steady t (s.changeChannel key change) :=
      s.steady_changeChannel t key change
    dsimp only
    split
    · exact (hturned _).trans (steady_setStage _ t _)
    · exact hturned _
    · have hended (change : Channel → Channel) (result : LinkResult) :
          s.Steady t ((s.changeChannel key change).conclude t result) :=
        (hturned change).trans (steady_conclude _ t result)
      dsimp only [concludePull]
      split
      · exact (hended _ _).trans (steady_changeChannel _ t key _)
      · exact hended _ _

/-! ### First turns and any turns -/

/-- A call that begins to ask for a reply is steady. -/
theorem steady_beginRequest (message : Message) (kind : MessageKind) (bound : Duration)
    (use : ReplyUse) : s.Steady t (s.beginRequest t message kind bound use).1 := by
  unfold beginRequest
  split
  · exact s.steady_conclude t _
  · have hopened : s.Steady t (s.addReply kind) := ⟨rfl, fun _ _ => rfl, fun _ _ h => h⟩
    exact hopened.trans (steady_beginSend _ t _ _ _)

/-- A call that begins to submit a script is steady. -/
theorem steady_beginSubmit (id : UInt16) (script : String) (seconds : UInt32) :
    s.Steady t (s.beginSubmit t id script seconds).1 := by
  unfold beginSubmit
  dsimp only
  split
  · exact s.steady_conclude t _
  · have hopened (c : Channel) : s.Steady t (s.addChannel c) :=
      ⟨rfl, fun _ _ => rfl, fun _ _ h => h⟩
    exact (hopened _).trans (steady_beginSend _ t _ _ _)

/-- The first turn of a call other than one to close the link. -/
theorem steady_beginCall {call : LinkCall} (hopen : call ≠ .close) :
    s.Steady t (s.beginCall t call).1 := by
  cases call with
  | send frame handler => exact s.steady_beginSend t _ _ _
  | request message kind bound => exact s.steady_beginRequest t _ _ _ _
  | handshake application url =>
    unfold beginCall
    cases s.config.handshakeTimeout with
    | error reason => exact s.steady_conclude t _
    | ok bound => exact s.steady_beginRequest t _ _ _ _
  | submit id script seconds => exact s.steady_beginSubmit t _ _ _
  | execute script =>
    have hallocated : s.Steady t s.nextId.2 := ⟨rfl, fun _ _ => rfl, fun _ _ h => h⟩
    exact hallocated.trans (steady_beginSubmit _ t _ _ _)
  | ping => exact s.steady_beginSend t _ _ _
  | close => exact absurd rfl hopen
  | keepAlive period => exact s.steady_setStage t _

/-- A call that is given up is steady. -/
theorem steady_dropTask (stage : Stage) : s.Steady t (s.dropTask t stage) := by
  have hended : s.Steady t ((s.leaveLine t).setStage t .ended) :=
    (s.steady_leaveLine t).trans (steady_setStage _ t _)
  unfold dropTask
  dsimp only
  split
  · exact hended.trans (steady_letGo _ t _)
  · exact (hended.trans (steady_letGo _ t _)).trans (steady_giveUp _ t _)
  · exact hended.trans (steady_giveUp _ t _)
  · exact hended.trans (steady_unregister _ t _)
  · exact hended.trans (steady_changeChannel _ t _ _)
  · exact hended

/-- Whether an action lets a call go on whose handshake was accepted. -/
def acceptsAt (s : Link) : Action → Bool
  | .markOpen => false
  | action => s.marksOpen action

/-- How a call leaves the task that sends pings in its turn. -/
inductive Tends (s : Link) (t : Nat) (next : Link) : Prop
  | steady (h : s.Steady t next)
  /-- The link is closed, and the task is ended. -/
  | stops {before after : Link} (h : s.Steady t before) (hstops : before.Stops after)
    (h' : after.Steady t next) (hclosed : next.isClosed)
  /-- Its handshake was accepted, and a task is started. -/
  | starts {before after : Link} {period : Duration} (haccepts : s.acceptsAt (.turn (.task t)))
    (h : s.Steady t before) (hstarts : before.Starts period after) (h' : after.Steady t next)

/-- The turn of a call takes no time. -/
theorem Tends.now {s next : Link} {t : Nat} (h : s.Tends t next) : next.now = s.now := by
  cases h with
  | steady h => exact h.now
  | stops h hstops h' => exact h'.now.trans (hstops.now.trans h.now)
  | starts haccepts h hstarts h' => exact h'.now.trans (hstarts.now.trans h.now)

/-- The turn of a call leaves the link with its owner. -/
theorem Tends.isHeld {s next : Link} {t : Nat} (h : s.Tends t next) : next.isHeld = s.isHeld := by
  cases h with
  | steady h => exact h.isHeld
  | stops h hstops h' => exact h'.isHeld.trans (hstops.isHeld.trans h.isHeld)
  | starts haccepts h hstarts h' => exact h'.isHeld.trans (hstarts.isHeld.trans h.isHeld)

/-- A task that sends pings did so before the turn, or it was started in it. -/
theorem Tends.isPinger {s next : Link} {t u : Nat} (h : s.Tends t next)
    (hpinger : next.IsPinger u) : s.IsPinger u ∨ s.tasks.length ≤ u := by
  cases h with
  | steady h => exact .inl (h.isPinger_iff.mp hpinger)
  | stops h hstops h' =>
    exact .inl (h.isPinger_iff.mp (hstops.pingers u (h'.isPinger_iff.mp hpinger)).1)
  | starts haccepts h hstarts h' =>
    rcases hstarts.pingers u (h'.isPinger_iff.mp hpinger) with rfl | ⟨hbefore, -⟩
    · exact .inr h.length.ge
    · exact .inl (h.isPinger_iff.mp hbefore)

/-- A handshake that is accepted opens the link, starts to send pings and ends well. -/
theorem replyTurn_of_isAcceptedAt {key : Nat} {bound : Duration} {use : ReplyUse} {deadline : Nat}
    (haccepted : s.isAcceptedAt (.replying key bound use deadline)) :
    s.replyTurn t key bound use deadline =
      (s.unregister (.reply key)).markOpen.startKeepAlive.conclude t .ok := by
  obtain ⟨huse, houtcome⟩ := Bool.and_eq_true_iff.mp haccepted
  obtain rfl : use = .handshake := by simpa using huse
  unfold replyTurn
  split
  · rename_i message hmessage
    have haccepts : message.accepts := by simpa [hmessage] using houtcome
    exact concludeHandshake_of_accepts _ t haccepts
  · rename_i reason hreason
    simp [hreason] at houtcome
  · rename_i hnone
    simp [hnone] at houtcome

/-- A handshake that is accepted starts a task in place of an earlier one, if an interval is set. -/
theorem accepts_taskTurn (haccepts : s.acceptsAt (.turn (.task t))) :
    ∃ before, s.Steady t before ∧ before.startKeepAlive.Steady t (s.taskTurn t).1 := by
  dsimp only [acceptsAt, marksOpen] at haccepts
  unfold taskTurn
  cases htask : s.tasks[t]? with
  | none => simp [htask] at haccepts
  | some task =>
    obtain ⟨label, stage, isAborted⟩ := task
    obtain ⟨rfl, haccepted⟩ : isAborted = false ∧ s.isAcceptedAt stage := by
      simpa [htask] using haccepts
    dsimp only
    rw [if_neg (by simp)]
    cases stage with
    | replying key bound use deadline =>
      dsimp only
      rw [replyTurn_of_isAcceptedAt s t haccepted]
      have hopened := (s.steady_unregister t (.reply key)).trans (steady_markOpen _ t)
      exact ⟨_, hopened, steady_conclude _ t .ok⟩
    | _ => cases haccepted

/-- A turn of a call is steady but for the end of the link and for an accepted handshake. -/
theorem tends_taskTurn : s.Tends t (s.taskTurn t).1 := by
  unfold taskTurn
  cases htask : s.tasks[t]? with
  | none => exact .steady (.refl s t)
  | some task =>
    obtain ⟨label, stage, isAborted⟩ := task
    dsimp only
    cases isAborted with
    | true => exact .steady (s.steady_dropTask t stage)
    | false =>
      rw [if_neg (by simp)]
      cases stage with
      | called call =>
        by_cases hcloses : call = .close
        · subst hcloses
          have hshut := (steady_fail s.stopKeepAlive t).trans
            ((steady_joinLine _ t).trans (steady_setStage _ t .closing))
          exact .stops (.refl s t) s.stops_stopKeepAlive hshut (isClosed_fail s.stopKeepAlive)
        · exact .steady (s.steady_beginCall t hcloses)
      | sending purpose step => exact .steady (s.steady_sendTurn t purpose step)
      | replying key bound use deadline =>
        cases haccepts : s.isAcceptedAt (.replying key bound use deadline) with
        | false => exact .steady (s.steady_replyTurn t key bound use deadline haccepts)
        | true =>
          have haction : s.acceptsAt (.turn (.task t)) := by
            simp [acceptsAt, marksOpen, htask, haccepts]
          obtain ⟨before, hbefore, hafter⟩ := s.accepts_taskTurn t haction
          have hturn : (s.taskTurn t).1 = s.replyTurn t key bound use deadline := by
            unfold taskTurn
            rw [htask]
            rfl
          rw [hturn] at hafter
          rcases before.starts_startKeepAlive with ⟨-, hsame⟩ | ⟨period, hstarts⟩
          · rw [hsame] at hafter
            exact .steady (hbefore.trans hafter)
          · exact .starts haction hbefore hstarts hafter
      | closing =>
        dsimp only
        split
        · exact .steady (((s.steady_setWriter t _).trans (steady_leaveLine _ t)).trans
            (steady_conclude _ t _))
        · exact .steady (.refl s t)
      | pulling key call => exact .steady (s.steady_pullTurn t key call)
      | watching key bound deadline => exact .steady (s.steady_watchTurn t key bound deadline)
      | pausing period due => exact .steady (s.steady_pauseTurn t period due)
      | ended => exact .steady (.refl s t)

/-! ### The reader -/

/-- Whatever the reader does next, all tasks are steady. -/
theorem steady_setReader (stage : ReaderStage) : s.Steady t (s.setReader stage) :=
  ⟨rfl, fun _ _ => rfl, fun _ _ h => h⟩

/-- A reader that puts a handler back is steady. -/
theorem steady_putBack (key : Nat) : s.Steady t (s.putBack key) := by
  unfold putBack
  dsimp only
  split
  · exact s.steady_setReader t _
  · exact (s.steady_setReader t _).trans (steady_requeue _ t _)

/-- A reader that reads on is steady. -/
theorem steady_readMore : s.Steady t s.readMore.1 := by
  unfold readMore
  split
  · exact (s.steady_shutdown t).trans (steady_setReader _ t _)
  · split
    · exact .refl s t
    · exact ⟨rfl, fun _ _ => rfl, fun _ _ h => h⟩
    · exact ⟨rfl, fun _ _ => rfl, fun _ _ h => h⟩
    · rename_i inbound _
      have hread : s.Steady t { s with inbound := inbound } := ⟨rfl, fun _ _ => rfl, fun _ _ h => h⟩
      exact (hread.trans (steady_shutdown _ t)).trans (steady_setReader _ t _)

/-- A reader that takes a frame is steady. -/
theorem steady_readFrame : s.Steady t s.readFrame.1 := by
  unfold readFrame
  split
  · rename_i buffer _
    have hread : s.Steady t { s with reader := { s.reader with buffer := buffer } } :=
      ⟨rfl, fun _ _ => rfl, fun _ _ h => h⟩
    exact hread.trans (steady_readMore _ t)
  · dsimp only [takeMatch]
    cases s.pending.find? _ <;> exact ⟨rfl, fun _ _ => rfl, fun _ _ h => h⟩

/-- A reader that decodes a payload is steady. -/
theorem steady_decodePayload (handler : Handler) (payload : List UInt8) :
    s.Steady t (s.decodePayload handler payload) := by
  unfold decodePayload
  split
  · exact (s.steady_changeReply t _ _).trans (steady_setReader _ t _)
  · split
    · exact (s.steady_changeChannel t _ _).trans (steady_setReader _ t _)
    · exact (s.steady_changeChannel t _ _).trans (steady_putBack _ t _)

/-- A reader that stores a row is steady. -/
theorem steady_storeRow (key : Nat) (row : Row) : s.Steady t (s.storeRow key row).1 := by
  have hstored := s.steady_changeChannel t key fun c => (c.store row).1
  unfold storeRow
  dsimp only
  split
  · exact hstored.trans (steady_putBack _ t key)
  · exact hstored

/-- A reader that is cut off is steady. -/
theorem steady_dropReader : s.Steady t s.dropReader := by
  have hstopped := s.steady_setReader t .stopped
  unfold dropReader
  dsimp only
  split
  · exact hstopped.trans (steady_letGo _ t _)
  · exact hstopped.trans (steady_changeChannel _ t _ _)
  · exact hstopped

/-- A turn of the reader is steady for every call. -/
theorem steady_readerTurn : s.Steady t s.readerTurn.1 := by
  unfold readerTurn
  split
  · exact s.steady_dropReader t
  · split
    · exact s.steady_readFrame t
    · exact s.steady_decodePayload t _ _
    · exact s.steady_storeRow t _ _
    · exact .refl s t

/-! ### Whole turns -/

/-- Who has had a turn and goes on is put in front. -/
theorem steady_goesOn (actor : Actor) (hactor : ∀ u, u ≠ t → Actor.task u ≠ actor) :
    s.Steady t { s with ready := actor :: s.ready.erase actor } :=
  ⟨rfl, fun _ _ => rfl, fun u hu hmem =>
    List.mem_cons_of_mem _ ((List.mem_erase_of_ne (hactor u hu)).mpr hmem)⟩

/-- Who takes a turn need not be woken any more. -/
theorem steady_begun (actor : Actor) (hactor : ∀ u, u ≠ t → Actor.task u ≠ actor) :
    s.Steady t { s with ready := s.ready.erase actor } :=
  ⟨rfl, fun _ _ => rfl, fun u hu hmem => (List.mem_erase_of_ne (hactor u hu)).mpr hmem⟩

/-- The reader leaves all calls alone. -/
theorem steady_turned_reader : s.Steady t (s.turned .reader) := by
  have hactor (u : Nat) (_ : u ≠ t) : Actor.task u ≠ .reader := fun h => by cases h
  have hturn := (s.steady_begun t .reader hactor).trans (steady_readerTurn _ t)
  unfold turned
  dsimp only
  split
  · exact hturn.trans (steady_goesOn _ t .reader hactor)
  · exact hturn

/-- What follows the turn of a call, up to the release of the link, is steady. -/
theorem steady_afterTurn :
    (({ s with ready := s.ready.erase (.task t) } : Link).taskTurn t).1.Steady t
      (s.turned (.task t)) := by
  unfold turned
  dsimp only
  split
  · exact steady_goesOn _ t (.task t) fun u hu h => hu (Actor.task.inj h)
  · exact .refl _ t

/-- The turn that accepts a handshake starts to send pings and is steady before and after. -/
theorem accepts_turned (haccepts : s.acceptsAt (.turn (.task t))) :
    ∃ before, s.Steady t before ∧ before.startKeepAlive.Steady t (s.turned (.task t)) := by
  have hbegun := s.steady_begun t (.task t) fun u hu h => hu (Actor.task.inj h)
  obtain ⟨before, hbefore, hafter⟩ :=
    accepts_taskTurn { s with ready := s.ready.erase (.task t) } t haccepts
  exact ⟨before, hbegun.trans hbefore, hafter.trans (s.steady_afterTurn t)⟩

/-- An action that is the turn of a call tends to the task that sends pings as the turn does. -/
theorem tends_turned : s.Tends t (s.turned (.task t)) := by
  have hbegun := s.steady_begun t (.task t) fun u hu h => hu (Actor.task.inj h)
  cases tends_taskTurn { s with ready := s.ready.erase (.task t) } t with
  | steady h => exact .steady ((hbegun.trans h).trans (s.steady_afterTurn t))
  | stops h hstops h' hclosed =>
    refine .stops (hbegun.trans h) hstops (h'.trans (s.steady_afterTurn t)) ?_
    unfold turned
    dsimp only
    split <;> exact hclosed
  | starts haccepts h hstarts h' =>
    exact .starts haccepts (hbegun.trans h) hstarts (h'.trans (s.steady_afterTurn t))

end Link

end BeeProtocol
