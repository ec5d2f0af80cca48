import BeeProtocol.Proofs.Link.Steps

/-!
# The calls' turns and the custody

A turn of a call does one of a few things to the custody of its link: it moves the call to another
stage, registers the handler that the call carries or lets go of it, opens a statement, or closes
the link. Each of them leaves the custody sound for every handler.
-/

namespace BeeProtocol

/-- The key of the handler that a call at this stage registers once it has the writer. -/
def Stage.entering? : Stage → Option Nat
  | sending _ (.inLine _ (some handler)) => handler.statement?
  | _ => none

/-- What the turn of a call at a stage can do to the custody, and what happens with it. -/
inductive CallStep (t : Nat) (stage : Stage) (c : Custody) : Option Happening → Custody → Prop
  | rest : CallStep t stage c none c
  | move (new : Stage) (h : new.handler? = stage.handler?) : CallStep t stage c none (c.move t new)
  | refuse (key : Nat) (h : stage.handler? = some key) :
    CallStep t stage c none ((c.letGo (.statement key)).move t .ended)
  | register (key : Nat) (new : Stage) (h : stage.handler? = some key) (hnew : new.handler? = none)
      (hopen : c.isClosed = false) :
    CallStep t stage c (some (.registered key))
      ({ c with waiting := c.waiting ++ [key] }.move t new)
  | fail (new : Stage) (h : new.handler? = stage.handler?) :
    CallStep t stage c none (c.shut.stop.move t new)
  | openCarried (id : UInt32) (new : Stage) (h : stage.handler? = none)
      (hnew : new.handler? = some c.entries.length) :
    CallStep t stage c none
      ({ c with entries := c.entries ++ [(id, Signal.answerOf [])] }.move t new)
  | openRefused (entry : StatementEntry)
      (h : stage.handler? = none) :
    CallStep t stage c none ({ c with entries := c.entries ++ [entry] }.move t .ended)
  | addPings (period : Duration) (h : stage.handler? = none) :
    CallStep t stage c none
      ({ c with stages := c.stages ++ [Stage.called (.keepAlive period)] }.move t .ended)

/-- The account of a handler after what may have happened. -/
def Account.noteAll (key : Nat) (account : Account) (happening : Option Happening) : Account :=
  happening.elim account (account.note key)

namespace Custody

variable {c c' : Custody} {key t : Nat} {account : Account} {stage : Stage}

/-- Whatever a call does in its turn leaves the custody sound. -/
theorem Sound.callStep (hc : c.Sound key account) (hstage : c.stages[t]? = some stage)
    {happening : Option Happening} (hstep : CallStep t stage c happening c') :
    c'.Sound key (account.noteAll key happening) := by
  cases hstep with
  | rest => exact hc
  | move new h => exact hc.move hstage h
  | refuse other h => exact hc.refuse hstage h rfl
  | register other new h hnew hopen => exact hc.register hstage h hnew hopen
  | fail new h => exact hc.fail.move (by rw [stop_stages, shut_stages, hstage]) h
  | openCarried id new h hnew =>
    refine hc.open_carried id ?_
    have hcount := Stage.countP_set hstage new fun stage => stage.handler? == some key
    rw [h, hnew] at hcount
    by_cases hkey : key = c.entries.length
    · simpa [hkey] using hcount
    · simpa [hkey, beq_false_of_ne (Ne.symm hkey)] using hcount
  | openRefused entry h =>
    refine hc.open_refused ?_ entry
    have hcount := Stage.countP_set hstage .ended fun stage => stage.handler? == some key
    rw [h] at hcount
    simpa [Stage.handler?] using hcount
  | addPings period h =>
    have hadded := hc.addCall (.called (.keepAlive period)) rfl
    refine hadded.move ?_ (show Stage.ended.handler? = stage.handler? from h.symm)
    exact (List.getElem?_append_left (List.getElem?_eq_some_iff.mp hstage).1).trans hstage

end Custody

namespace Link

variable (s : Link) (t : Nat) {stage : Stage}

/-! ### Writing a frame -/

/-- A call that starts to write joins the line with its handler, or ends and lets go of it. -/
theorem custody_beginSend (purpose : Purpose) (frame : Frame) (handler : Option Handler) :
    (s.beginSend t purpose frame handler).1.custody =
        s.custody.move t (.sending purpose (.inLine frame handler)) ∨
      (s.beginSend t purpose frame handler).1.custody =
        (handler.elim s.custody s.custody.letGo).move t .ended := by
  rcases s.beginSend_cases t purpose frame handler with ⟨-, hsend⟩ | ⟨-, reason, hsend⟩
  · rw [hsend, custody_setStage, custody_joinLine]
    exact .inl rfl
  · rw [hsend, custody_failSend]
    cases handler with
    | none => exact .inr rfl
    | some handler => exact .inr (congrArg (·.move t .ended) (s.custody_letGo handler))

/-- A call that wants to write keeps its handler or lets go of it. -/
theorem beginSend_step (purpose : Purpose) (frame : Frame) {handler : Option Handler}
    (h : stage.handler? = handler.bind Handler.statement?) :
    CallStep t stage s.custody none (s.beginSend t purpose frame handler).1.custody := by
  rcases s.custody_beginSend t purpose frame handler with hcustody | hcustody
  · rw [hcustody]
    refine .move _ ?_
    cases handler <;> exact h.symm
  · rw [hcustody]
    cases handler with
    | none => exact .move .ended h.symm
    | some handler =>
      cases handler with
      | reply key => exact .move .ended h.symm
      | statement key => exact .refuse key h

/-- A call that enters the writer registers its handler, or lets go of it if the link is closed. -/
theorem enter_step (purpose : Purpose) (frame : Frame) {handler : Option Handler}
    (h : stage.handler? = handler.bind Handler.statement?) :
    CallStep t stage s.custody
      (if s.isClosed then none else (handler.bind Handler.statement?).map .registered)
      (s.enter t purpose frame handler).1.custody := by
  unfold enter
  dsimp only
  cases hclosed : s.isClosed with
  | true =>
    rw [if_pos rfl, if_pos rfl, custody_failSend, custody_leaveLine]
    cases handler with
    | none => exact .move .ended h.symm
    | some handler =>
      have hregister : s.register handler = s.letGo handler := by
        unfold register
        rw [if_pos hclosed]
      rw [Option.elim_some, hregister, custody_letGo]
      cases handler with
      | reply key => exact .move .ended h.symm
      | statement key => exact .refuse key h
  | false =>
    rw [if_neg (by simp), if_neg (by simp), custody_setStage]
    cases handler with
    | none => exact .move _ h.symm
    | some handler =>
      rw [Option.elim_some, s.custody_register hclosed]
      cases handler with
      | reply key =>
        have hsame : s.custody = { s.custody with
            waiting := s.custody.waiting ++ (Handler.reply key).statement?.toList } := by
          simp [Handler.statement?]
        rw [← hsame]
        exact .move _ h.symm
      | statement key => exact .register key _ h rfl hclosed

/-- A call whose frame is out has no handler any more. -/
theorem afterSend_step (purpose : Purpose) (h : stage.handler? = none) :
    CallStep t stage s.custody none (s.afterSend t purpose).1.custody := by
  cases purpose with
  | plain =>
    rw [afterSend, custody_conclude]
    exact .move .ended h.symm
  | reply key bound use =>
    rw [afterSend, custody_setStage]
    exact .move _ h.symm
  | statement key =>
    rw [afterSend, custody_conclude]
    exact .move .ended h.symm
  | keepAlive period next =>
    rw [afterSend, custody_setStage]
    exact .move _ h.symm

/-- A call that fails to write closes the link. -/
theorem failWrite_step (purpose : Purpose) (reason : ProtocolError) (h : stage.handler? = none) :
    CallStep t stage s.custody none (s.failWrite t purpose reason).custody := by
  rw [custody_failWrite]
  exact .fail .ended h.symm

/-- Once a call has entered the writer, it carries no handler any more. -/
theorem sendTurn_step (purpose : Purpose) {step : SendStep}
    (hstep : ∀ frame handler, step ≠ .inLine frame handler) (h : stage.handler? = none) :
    CallStep t stage s.custody none (s.sendTurn t purpose step).1.custody := by
  have hfailed (reason : String) := failWrite_step { s with writer := s.writer.flush.1 } t purpose
    (.io reason) h
  cases step with
  | inLine frame handler => exact absurd rfl (hstep frame handler)
  | holding frame =>
    unfold sendTurn
    dsimp only
    split
    · split
      · rename_i bytes _
        rw [custody_setStage]
        exact .move _ h.symm
      · exact s.failWrite_step t purpose _ h
    · split
      · exact .rest
      · exact .rest
      · exact hfailed _
  | flushing =>
    unfold sendTurn
    dsimp only
    split
    · have hafter := afterSend_step (({ s with writer := s.writer.flush.1 } : Link).leaveLine t) t
        purpose h
      rw [custody_leaveLine] at hafter
      exact hafter
    · exact .rest
    · exact hfailed _

/-- A task that pauses has no handler. -/
theorem pauseTurn_step (period : Duration) (due : Nat) (h : stage.handler? = none) :
    CallStep t stage s.custody none (s.pauseTurn t period due).1.custody := by
  unfold pauseTurn
  split
  · split
    · rw [custody_setStage]
      exact .move .ended h.symm
    · exact s.beginSend_step t _ _ h
  · exact .rest

/-! ### Replies and responses -/

/-- A call that ends without a handler leaves all statements alone. -/
theorem conclude_step (result : LinkResult) (h : stage.handler? = none) :
    CallStep t stage s.custody none (s.conclude t result).custody := by
  rw [custody_conclude]
  exact .move .ended h.symm

/-- A handshake that has its reply leaves all statements alone. -/
theorem concludeHandshake_step (reply : Message) (h : stage.handler? = none) :
    CallStep t stage s.custody none (s.concludeHandshake t reply).custody := by
  have hopened : CallStep t stage s.custody none
      (s.markOpen.startKeepAlive.conclude t .ok).custody := by
    rw [custody_conclude]
    rcases s.markOpen.custody_startKeepAlive with hnone | ⟨period, hsome⟩
    · rw [hnone, custody_markOpen]
      exact .move .ended h.symm
    · rw [hsome, custody_markOpen]
      exact .addPings period h
  unfold concludeHandshake
  split
  · split
    · exact hopened
    · exact s.conclude_step t _ h
  · exact hopened

/-- A call that waits for a reply leaves all statements alone. -/
theorem replyTurn_step (reply : Nat) (bound : Duration) (use : ReplyUse) (deadline : Nat)
    (h : stage.handler? = none) :
    CallStep t stage s.custody none (s.replyTurn t reply bound use deadline).custody := by
  have hunregistered := s.custody_unregister_reply reply
  unfold replyTurn
  split
  · rw [← hunregistered]
    cases use with
    | request => exact conclude_step _ t _ h
    | handshake => exact concludeHandshake_step _ t _ h
  · rw [← hunregistered]
    exact conclude_step _ t _ h
  · split
    · rw [← hunregistered]
      exact conclude_step _ t _ h
    · exact .rest

/-- A call that watches a reply leaves all statements alone. -/
theorem watchTurn_step (reply : Nat) (bound : Option Duration) (deadline : Option Nat)
    (h : stage.handler? = none) :
    CallStep t stage s.custody none (s.watchTurn t reply bound deadline).custody := by
  unfold watchTurn
  split
  · exact s.conclude_step t _ h
  · exact s.conclude_step t _ h
  · split
    · exact s.conclude_step t _ h
    · exact .rest
  · exact .rest

/-- A call on a response takes its rows and changes nothing in the custody of handlers. -/
theorem pullTurn_step (channel : Nat) (call : PullCall) (h : stage.handler? = none) :
    CallStep t stage s.custody none (s.pullTurn t channel call).1.custody := by
  unfold pullTurn
  cases hchannel : s.channels[channel]? with
  | none => exact .rest
  | some c =>
    dsimp only
    have hsame : (s.changeChannel channel fun _ => (call.turn s.now c).2).custody = s.custody := by
      apply s.custody_changeChannel_of_entry channel
      intro c' hc'
      obtain rfl : c = c' := Option.some.inj (hchannel.symm.trans hc')
      exact call.turn_entry s.now c
    split
    · rw [custody_setStage, hsame]
      exact .move _ h.symm
    · rw [hsame]
      exact .rest
    · unfold concludePull
      dsimp only
      split
      · rw [custody_changeChannel_drop, custody_conclude, hsame]
        exact .move .ended h.symm
      · rw [custody_conclude, hsame]
        exact .move .ended h.symm

/-! ### First turns -/

/-- A call that asks for a reply leaves all statements alone. -/
theorem beginRequest_step (message : Message) (kind : MessageKind) (bound : Duration)
    (use : ReplyUse) (h : stage.handler? = none) :
    CallStep t stage s.custody none (s.beginRequest t message kind bound use).1.custody := by
  unfold beginRequest
  split
  · exact s.conclude_step t _ h
  · exact beginSend_step (s.addReply kind) t _ _ h

/-- A call that submits a script opens a statement and brings its handler, or ends. -/
theorem beginSubmit_step (id : UInt16) (script : String) (seconds : UInt32)
    (h : stage.handler? = none) :
    CallStep t stage s.custody none (s.beginSubmit t id script seconds).1.custody := by
  unfold beginSubmit
  dsimp only
  split
  · exact s.conclude_step t _ h
  · rename_i frame _
    generalize hfresh : Channel.fresh id.toUInt32 s.config.rowCapacity
      (if seconds = 0 then s.config.statementTimeout else .ofSeconds seconds.toUInt64) = channel
    have hentry : channel.entry = (id.toUInt32, Signal.answerOf []) := by
      rw [← hfresh]
      rfl
    have hlength : s.channels.length = s.custody.entries.length := by simp [custody]
    rcases (s.addChannel channel).custody_beginSend t (.statement s.channels.length) frame
      (some (.statement s.channels.length)) with hcustody | hcustody
    · rw [hcustody, custody_addChannel, hentry]
      exact .openCarried id.toUInt32 _ h (congrArg some hlength)
    · rw [hcustody, custody_addChannel, Option.elim_some, hlength]
      have hlast : (s.custody.entries ++ [channel.entry]).modify s.custody.entries.length
          (Channel.endEntry .connectionClosed) =
            s.custody.entries ++ [Channel.endEntry .connectionClosed channel.entry] := by
        rw [List.modify_eq_take_cons_drop (by simp)]
        simp
      unfold Custody.letGo
      dsimp only
      rw [hlast]
      exact .openRefused _ h

/-- A call that asks to connect leaves all statements alone. -/
theorem beginHandshake_step (application url : String)
    (timeout : Except DurationOverflow Duration) (h : stage.handler? = none) :
    CallStep t stage s.custody none (s.beginHandshake t application url timeout).1.custody := by
  cases timeout with
  | error reason => exact s.conclude_step t _ h
  | ok bound => exact s.beginRequest_step t _ _ bound .handshake h

/-- Every call keeps the handler that it has, opens a statement or ends in its first turn. -/
theorem beginCall_step (call : LinkCall) (h : stage = .called call) :
    CallStep t stage s.custody none (s.beginCall t call).1.custody := by
  subst h
  cases call with
  | send frame handler =>
    refine s.beginSend_step t .plain frame ?_
    cases handler <;> rfl
  | request message kind bound => exact s.beginRequest_step t message kind bound .request rfl
  | handshake application url =>
    unfold beginCall
    generalize s.config.handshakeTimeout = timeout
    exact s.beginHandshake_step t application url timeout rfl
  | submit id script seconds => exact s.beginSubmit_step t id script seconds rfl
  | execute script =>
    unfold beginCall nextId
    dsimp only
    exact beginSubmit_step { s with lastId := followingId s.lastId } t _ script _ rfl
  | ping => exact s.beginSend_step t .plain pingFrame rfl
  | close =>
    unfold beginCall
    dsimp only
    rw [custody_setStage, custody_joinLine, custody_fail, custody_stopKeepAlive]
    exact .fail _ rfl
  | keepAlive period =>
    unfold beginCall
    dsimp only
    rw [custody_setStage]
    exact .move _ rfl

/-! ### Any turn -/

/-- A call that is ended lets go of the handler that it carries. -/
theorem dropTask_step : CallStep t stage s.custody none (s.dropTask t stage).custody := by
  have hended : ((s.leaveLine t).setStage t .ended).custody = s.custody.move t .ended := by
    rw [custody_setStage, custody_leaveLine]
  have hletGo (handler : Handler) (h : stage.handler? = handler.statement?) :
      CallStep t stage s.custody none
        (((s.leaveLine t).setStage t .ended).letGo handler).custody := by
    rw [custody_letGo, hended]
    cases handler with
    | reply key => exact .move .ended h.symm
    | statement key => exact .refuse key h
  have hplain (h : stage.handler? = none) : CallStep t stage s.custody none
      ((s.leaveLine t).setStage t .ended).custody := by
    rw [hended]
    exact .move .ended h.symm
  cases stage with
  | called call =>
    cases call with
    | send frame handler =>
      cases handler with
      | none => exact hplain rfl
      | some handler => exact hletGo handler rfl
    | _ => exact hplain rfl
  | sending purpose step =>
    have hgivenUp (h : (Stage.sending purpose step).handler? = none) :
        CallStep t (.sending purpose step) s.custody none
          (((s.leaveLine t).setStage t .ended).giveUp purpose).custody := by
      rw [custody_giveUp]
      exact hplain h
    cases step with
    | inLine frame handler =>
      cases handler with
      | none => exact hgivenUp rfl
      | some handler =>
        dsimp only [dropTask]
        rw [custody_giveUp]
        exact hletGo handler rfl
    | holding frame => exact hgivenUp rfl
    | flushing => exact hgivenUp rfl
  | replying key bound use deadline =>
    dsimp only [dropTask]
    rw [custody_unregister_reply]
    exact hplain rfl
  | pulling key call =>
    dsimp only [dropTask]
    rw [custody_changeChannel_drop]
    exact hplain rfl
  | closing => exact hplain rfl
  | watching key bound deadline => exact hplain rfl
  | pausing period due => exact hplain rfl
  | ended => exact hplain rfl

/-- What a turn brings about for the handlers of statements. -/
def happening? (s : Link) : Actor → Option Happening
  | .reader =>
    if s.reader.isAborted then none
    else
      match s.reader.stage with
      | .reading => (s.codec.decode s.reader.buffer).1.map .read
      | .decoding (.statement key) payload => some (.handed key payload)
      | _ => none
  | .task t =>
    if s.hasWriter t && !s.isClosed then
      (s.tasks[t]?).bind fun task =>
        if task.isAborted then none else task.stage.entering?.map .registered
    else none

/-- In line for the writer a call rests until it has it. Then its handler is registered, or given up
on a closed connection. -/
theorem inLine_step {label : Option Nat} {purpose : Purpose} {frame : Frame}
    {handler : Option Handler}
    (h : s.tasks[t]? = some ⟨label, .sending purpose (.inLine frame handler), false⟩) :
    CallStep t (.sending purpose (.inLine frame handler)) s.custody (s.happening? (.task t))
      (s.sendTurn t purpose (.inLine frame handler)).1.custody := by
  have hstage : (Stage.sending purpose (.inLine frame handler)).handler? =
      handler.bind Handler.statement? := by
    cases handler <;> rfl
  have henter := s.enter_step t purpose frame hstage
  dsimp only [happening?, sendTurn]
  rw [h]
  cases hwriter : s.hasWriter t with
  | false => exact .rest
  | true =>
    cases hclosed : s.isClosed with
    | true =>
      rw [hclosed] at henter
      exact henter
    | false =>
      rw [hclosed] at henter
      cases handler <;> exact henter

/-- What the turn of a call does to the custody. -/
theorem taskTurn_step {task : Task} (h : s.tasks[t]? = some task) :
    CallStep t task.stage s.custody (s.happening? (.task t)) (s.taskTurn t).1.custody := by
  have hnothing (hnone : task.isAborted ∨ task.stage.entering? = none) :
      s.happening? (.task t) = none := by
    dsimp only [happening?]
    rw [h]
    rcases hnone with haborted | hentering
    · simp [haborted]
    · simp [hentering]
  obtain ⟨label, stage, isAborted⟩ := task
  unfold taskTurn
  rw [h]
  dsimp only
  cases isAborted with
  | true =>
    rw [hnothing (.inl rfl)]
    exact s.dropTask_step t
  | false =>
    have hplain (hentering : stage.entering? = none) {next : Link}
        (hstep : CallStep t stage s.custody none next.custody) :
        CallStep t stage s.custody (s.happening? (.task t)) next.custody := by
      rw [hnothing (.inr hentering)]
      exact hstep
    rw [if_neg Bool.false_ne_true]
    cases stage with
    | called call => exact hplain rfl (s.beginCall_step t call rfl)
    | sending purpose step =>
      cases step with
      | inLine frame handler => exact s.inLine_step t h
      | holding frame =>
        refine hplain rfl (s.sendTurn_step t purpose ?_ rfl)
        intro frame handler h
        cases h
      | flushing =>
        refine hplain rfl (s.sendTurn_step t purpose ?_ rfl)
        intro frame handler h
        cases h
    | replying reply bound use deadline =>
      exact hplain rfl (s.replyTurn_step t reply bound use deadline rfl)
    | closing =>
      refine hplain rfl ?_
      dsimp only
      split
      · rw [custody_conclude, custody_leaveLine]
        exact .move .ended rfl
      · exact .rest
    | pulling channel call => exact hplain rfl (s.pullTurn_step t channel call rfl)
    | watching reply bound deadline =>
      exact hplain rfl (s.watchTurn_step t reply bound deadline rfl)
    | pausing period due => exact hplain rfl (s.pauseTurn_step t period due rfl)
    | ended => exact hplain rfl .rest

end Link

end BeeProtocol
