import BeeProtocol.Proofs.Link.Journal
import BeeProtocol.Proofs.Link.Registration

/-!
# The course of a call

A call goes from stage to stage in its own turns, and each turn takes it one step on its way, leaves
it where it is or ends it. Nobody else moves a call, except that it may be ended wherever it stands.
-/

namespace BeeProtocol

/-- Whether a call may begin at a stage. -/
def Stage.isFirst : Stage → Bool
  | called _ => true
  | pulling _ _ => true
  | watching _ _ _ => true
  | _ => false

namespace Link

/-- What a call writes: for which purpose, in which frame, and with which handler for the answer. -/
inductive Writes (s : Link) : LinkCall → Purpose → Frame → Option Handler → Prop
  | send (frame : Frame) (handler : Option Handler) :
    Writes s (.send frame handler) .plain frame handler
  | request {message : Message} {frame : Frame} (kind : MessageKind) (bound : Duration)
    (hframe : message.toFrame = .ok frame) :
    Writes s (.request message kind bound) (.reply s.replies.length bound .request) frame
      (some (.reply s.replies.length))
  | handshake {application url : String} {frame : Frame} {bound : Duration}
    (hbound : s.config.handshakeTimeout = .ok bound)
    (hframe : (Message.connectRequest ⟨url, application⟩).toFrame = .ok frame) :
    Writes s (.handshake application url) (.reply s.replies.length bound .handshake) frame
      (some (.reply s.replies.length))
  | submit (id : UInt16) (script : String) (seconds : UInt32) {frame : Frame}
    (hframe : (Message.statementRequest ⟨id.toUInt32, script, seconds⟩).toFrame = .ok frame) :
    Writes s (.submit id script seconds) (.statement s.channels.length) frame
      (some (.statement s.channels.length))
  | execute (script : String) {frame : Frame}
    (hframe : (Message.statementRequest
      ⟨s.nextId.1.toUInt32, script, s.config.statementTimeoutSeconds⟩).toFrame = .ok frame) :
    Writes s (.execute script) (.statement s.channels.length) frame
      (some (.statement s.channels.length))
  | ping : Writes s .ping .plain pingFrame none

/-- Where a call at a stage stands after a turn of its own. -/
inductive Course (s : Link) (t : Nat) : Stage → Stage → Prop
  | wait (stage : Stage) : Course s t stage stage
  | finish (stage : Stage) : Course s t stage .ended
  /-- It joins the line for the writer. -/
  | queue {call : LinkCall} {purpose : Purpose} {frame : Frame} {handler : Option Handler}
    (hwrites : s.Writes call purpose frame handler) (hsize : frame.payload.length ≤ s.codec.limit) :
    Course s t (.called call) (.sending purpose (.inLine frame handler))
  | close : Course s t (.called .close) .closing
  | pings (period : Duration) (due : Nat) :
    Course s t (.called (.keepAlive period)) (.pausing period due)
  | nextPing (period : Duration) (due next : Nat) :
    Course s t (.pausing period due) (.sending (.keepAlive period next) (.inLine pingFrame none))
  /-- It gets the writer of an open link. -/
  | enter {purpose : Purpose} {frame : Frame} {handler : Option Handler} (hwriter : s.hasWriter t)
    (hopen : s.isClosed = false) :
    Course s t (.sending purpose (.inLine frame handler)) (.sending purpose (.holding frame))
  | encode {purpose : Purpose} {frame : Frame} (hroom : s.writer.outbox.length < Writer.boundary)
    (hsize : frame.payload.length ≤ s.codec.limit) :
    Course s t (.sending purpose (.holding frame)) (.sending purpose .flushing)
  | await (key : Nat) (bound : Duration) (use : ReplyUse) (deadline : Nat) :
    Course s t (.sending (.reply key bound use) .flushing) (.replying key bound use deadline)
  | pause (period : Duration) (next : Nat) :
    Course s t (.sending (.keepAlive period next) .flushing) (.pausing period next)
  /-- It has taken a row of its response and waits for the next one. -/
  | pull {key : Nat} {call call' : PullCall} {c : Channel} (hchannel : s.channels[key]? = some c)
    (hagain : (call.turn s.now c).1 = .again call') :
    Course s t (.pulling key call) (.pulling key call')

/-- A call at a stage has taken a turn; besides, a task that sends pings may have been started. -/
def Proceeds (s next : Link) (t : Nat) (stage : Stage) : Prop :=
  ∃ new more, next.roster.stages = (s.roster.stages ++ more).set t new ∧
    (∀ added ∈ more, ∃ period, added = .called (.keepAlive period)) ∧ s.Course t stage new

variable {s next : Link} {t : Nat} {stage : Stage}

/-- A call proceeds when it alone moves along its course. -/
theorem Proceeds.of_set {new : Stage} (hnext : next.roster.stages = s.roster.stages.set t new)
    (hcourse : s.Course t stage new) : s.Proceeds next t stage :=
  ⟨new, [], by rw [List.append_nil, hnext], by simp, hcourse⟩

/-- A call proceeds when it waits where it stands. -/
theorem Proceeds.of_same (hstage : s.roster.stages[t]? = some stage)
    (hnext : next.roster.stages = s.roster.stages) : s.Proceeds next t stage := by
  obtain ⟨ht, hget⟩ := List.getElem?_eq_some_iff.mp hstage
  refine .of_set ?_ (.wait stage)
  rw [hnext, ← hget, List.set_getElem_self]

/-- A call proceeds when it ends. -/
theorem Proceeds.of_finish (hnext : next.roster.stages = s.roster.stages.set t .ended) :
    s.Proceeds next t stage := .of_set hnext (.finish stage)

variable (s)

/-! ### Writing a frame -/

/-- A call that ends moves alone. -/
theorem stages_conclude (result : LinkResult) :
    (s.conclude t result).roster.stages = s.roster.stages.set t .ended :=
  congrArg Roster.stages (s.roster_conclude t result)

/-- A call that fails moves alone. -/
theorem stages_failSend (purpose : Purpose) (reason : ClientError) :
    (s.failSend t purpose reason).roster.stages = s.roster.stages.set t .ended := by
  rw [roster_failSend, Roster.move, Roster.giveUp_stages]

/-- A call that fails to write moves alone. -/
theorem stages_failWrite (purpose : Purpose) (reason : ProtocolError) :
    (s.failWrite t purpose reason).roster.stages = s.roster.stages.set t .ended := by
  rw [roster_failWrite, Roster.move, Roster.giveUp_stages, Roster.stop_stages, Roster.shut_stages]
  rfl

/-- A call that wants to write joins the line if its frame is not too large. -/
theorem stages_beginSend (purpose : Purpose) (frame : Frame) (handler : Option Handler) :
    (s.beginSend t purpose frame handler).1.roster.stages = s.roster.stages.set t .ended ∨
      frame.payload.length ≤ s.codec.limit ∧
        (s.beginSend t purpose frame handler).1.roster.stages =
          s.roster.stages.set t (.sending purpose (.inLine frame handler)) := by
  rcases s.beginSend_cases t purpose frame handler with ⟨hfits, hsend⟩ | ⟨-, reason, hsend⟩ <;>
    rw [hsend]
  · refine .inr ⟨hfits, ?_⟩
    rw [roster_setStage]
    rfl
  · left
    rw [stages_failSend]
    cases handler with
    | none => rfl
    | some handler => rw [Option.elim_some, roster_letGo, Roster.letGo_stages]

/-- A call whose frame is not too large joins the line. -/
theorem stages_beginSend_of_le (purpose : Purpose) {frame : Frame} (handler : Option Handler)
    (hsize : frame.payload.length ≤ s.codec.limit) :
    (s.beginSend t purpose frame handler).1.roster.stages =
      s.roster.stages.set t (.sending purpose (.inLine frame handler)) := by
  rcases s.beginSend_cases t purpose frame handler with ⟨-, hsend⟩ | ⟨hlarge, -⟩
  · rw [hsend, roster_setStage]
    rfl
  · exact absurd hsize (Nat.not_le_of_lt hlarge)

/-- A call that writes joins the line or ends. -/
theorem proceeds_beginSend {call : LinkCall} {purpose : Purpose} {frame : Frame}
    {handler : Option Handler} (hwrites : s.Writes call purpose frame handler) {opened : Link}
    (hstages : opened.roster.stages = s.roster.stages) (hconfig : opened.config = s.config) :
    s.Proceeds (opened.beginSend t purpose frame handler).1 t (.called call) := by
  rcases opened.stages_beginSend purpose frame handler with hended | ⟨hsize, hjoined⟩
  · exact .of_finish (by rw [hended, hstages])
  · rw [codec, hconfig] at hsize
    exact .of_set (by rw [hjoined, hstages]) (.queue hwrites hsize)

/-- A call that gets the writer holds it, or is refused. -/
theorem proceeds_enter {purpose : Purpose} {frame : Frame} {handler : Option Handler}
    (hwriter : s.hasWriter t) :
    s.Proceeds (s.enter t purpose frame handler).1 t
      (.sending purpose (.inLine frame handler)) := by
  have hstages : (handler.elim s s.register).roster.stages = s.roster.stages := by
    cases handler with
    | none => rfl
    | some handler =>
      dsimp only [Option.elim_some]
      cases hclosed : s.isClosed with
      | true => rw [s.register_of_isClosed hclosed, roster_letGo, Roster.letGo_stages]
      | false => rw [s.roster_register hclosed]
  unfold enter
  dsimp only
  split
  · refine .of_finish ?_
    rw [stages_failSend, roster_leaveLine, Roster.leave, hstages]
  · rename_i hopen
    refine .of_set ?_ (.enter hwriter (by simpa using hopen))
    rw [roster_setStage, Roster.move, hstages]

/-- What a call does whose frame is out. -/
theorem proceeds_afterSend (purpose : Purpose) {sent : Link}
    (hstages : sent.roster.stages = s.roster.stages) :
    s.Proceeds ((sent.leaveLine t).afterSend t purpose).1 t (.sending purpose .flushing) := by
  have hleft : (sent.leaveLine t).roster.stages = s.roster.stages := by
    rw [roster_leaveLine, ← hstages]
    rfl
  cases purpose with
  | plain => exact .of_finish (by rw [afterSend, stages_conclude, hleft])
  | reply key bound use =>
    refine .of_set ?_ (.await key bound use (Clock.after (sent.leaveLine t).now bound))
    rw [afterSend, roster_setStage, Roster.move, hleft]
  | statement key => exact .of_finish (by rw [afterSend, stages_conclude, hleft])
  | keepAlive period next =>
    refine .of_set ?_ (.pause period next)
    rw [afterSend, roster_setStage, Roster.move, hleft]

/-- A call that writes proceeds in its turn. -/
theorem proceeds_sendTurn {purpose : Purpose} {step : SendStep}
    (hstage : s.roster.stages[t]? = some (.sending purpose step)) :
    s.Proceeds (s.sendTurn t purpose step).1 t (.sending purpose step) := by
  have hflushed (reason : ProtocolError) : s.Proceeds
      (failWrite { s with writer := s.writer.flush.1 } t purpose reason) t
        (.sending purpose step) := .of_finish (stages_failWrite _ purpose reason)
  cases step with
  | inLine frame handler =>
    dsimp only [sendTurn]
    split
    · rename_i hwriter
      exact s.proceeds_enter hwriter
    · exact .of_same hstage rfl
  | holding frame =>
    dsimp only [sendTurn]
    split
    · rename_i hroom
      by_cases hsize : frame.payload.length ≤ s.codec.limit
      · have hencoded : s.codec.encode frame = .ok frame.envelope := if_pos hsize
        rw [hencoded]
        refine .of_set ?_ (.encode hroom hsize)
        dsimp only
        rw [roster_setStage]
        rfl
      · have hrefused : s.codec.encode frame =
            .error (.frameTooLarge frame.payload.length s.codec.limit) := if_neg hsize
        rw [hrefused]
        exact .of_finish (s.stages_failWrite purpose _)
    · split
      · exact .of_same hstage rfl
      · exact .of_same hstage rfl
      · exact hflushed _
  | flushing =>
    dsimp only [sendTurn]
    split
    · exact s.proceeds_afterSend purpose rfl
    · exact .of_same hstage rfl
    · exact hflushed _

/-! ### Other turns -/

/-- A task that pauses proceeds in its turn. -/
theorem proceeds_pauseTurn (period : Duration) (due : Nat)
    (hstage : s.roster.stages[t]? = some (.pausing period due)) :
    s.Proceeds (s.pauseTurn t period due).1 t (.pausing period due) := by
  unfold pauseTurn
  split
  · split
    · exact .of_finish (by rw [roster_setStage]; rfl)
    · rcases s.stages_beginSend (.keepAlive period (Clock.next s.now due period)) pingFrame none
        with hended | ⟨-, hjoined⟩
      · exact .of_finish hended
      · exact .of_set hjoined (.nextPing period due _)
  · exact .of_same hstage rfl

/-- An accepted handshake may start to send pings. -/
theorem proceeds_accepted (key : Nat) :
    s.Proceeds ((s.unregister (.reply key)).markOpen.startKeepAlive.conclude t .ok) t stage := by
  have hopened : (s.unregister (.reply key)).markOpen.roster.stages = s.roster.stages := by
    rw [roster_markOpen]
    rfl
  rcases (s.unregister (.reply key)).markOpen.roster_startKeepAlive with hsame | ⟨period, hadded⟩
  · exact .of_finish (by rw [stages_conclude, hsame, hopened])
  · refine ⟨.ended, [.called (.keepAlive period)], ?_, by simp, .finish stage⟩
    rw [stages_conclude, hadded, hopened]

/-- A call that waits for a reply proceeds in its turn. -/
theorem proceeds_replyTurn (key : Nat) (bound : Duration) (use : ReplyUse) (deadline : Nat)
    (hstage : s.roster.stages[t]? = some (.replying key bound use deadline)) :
    s.Proceeds (s.replyTurn t key bound use deadline) t (.replying key bound use deadline) := by
  have hended (result : LinkResult) : s.Proceeds
      ((s.unregister (.reply key)).conclude t result) t (.replying key bound use deadline) :=
    .of_finish (stages_conclude _ result)
  unfold replyTurn
  split
  · cases use with
    | request => exact hended _
    | handshake =>
      dsimp only [concludeHandshake]
      split
      · split
        · exact s.proceeds_accepted key
        · exact hended _
      · exact s.proceeds_accepted key
  · exact hended _
  · split
    · exact hended _
    · exact .of_same hstage rfl

/-- A call that watches a reply proceeds in its turn. -/
theorem proceeds_watchTurn (key : Nat) (bound : Option Duration) (deadline : Option Nat)
    (hstage : s.roster.stages[t]? = some (.watching key bound deadline)) :
    s.Proceeds (s.watchTurn t key bound deadline) t (.watching key bound deadline) := by
  have hended (result : LinkResult) :
      s.Proceeds (s.conclude t result) t (.watching key bound deadline) :=
    .of_finish (s.stages_conclude result)
  unfold watchTurn
  split
  · exact hended _
  · exact hended _
  · split
    · exact hended _
    · exact .of_same hstage rfl
  · exact .of_same hstage rfl

/-- A call on a response proceeds in its turn. -/
theorem proceeds_pullTurn (key : Nat) (call : PullCall)
    (hstage : s.roster.stages[t]? = some (.pulling key call)) :
    s.Proceeds (s.pullTurn t key call).1 t (.pulling key call) := by
  unfold pullTurn
  split
  · exact .of_same hstage rfl
  · rename_i c hchannel
    dsimp only
    split
    · rename_i call' hagain
      refine .of_set ?_ (.pull hchannel hagain)
      rw [roster_setStage, roster_changeChannel]
      rfl
    · refine .of_same hstage ?_
      rw [roster_changeChannel]
      rfl
    · refine .of_finish ?_
      dsimp only [concludePull]
      split
      · rw [roster_changeChannel, roster_conclude, roster_changeChannel]
        rfl
      · rw [roster_conclude, roster_changeChannel]
        rfl

/-- A closing call waits until it has the writer. -/
theorem proceeds_closing (hstage : s.roster.stages[t]? = some .closing) :
    s.Proceeds
      (if s.hasWriter t then
        (({ s with writer := s.writer.shutdown }.leaveLine t).conclude t .closed, false)
      else (s, false)).1 t .closing := by
  split
  · refine .of_finish ?_
    rw [roster_conclude, roster_leaveLine]
    rfl
  · exact .of_same hstage rfl

/-! ### First turns -/

/-- Every call proceeds in its first turn. -/
theorem proceeds_beginCall (call : LinkCall) :
    s.Proceeds (s.beginCall t call).1 t (.called call) := by
  have hended {next : Link} (hnext : next.roster.stages = s.roster.stages.set t .ended) :
      s.Proceeds next t (.called call) := .of_finish hnext
  cases call with
  | send frame handler => exact s.proceeds_beginSend (.send frame handler) rfl rfl
  | request message kind bound =>
    dsimp only [beginCall, beginRequest]
    split
    · exact hended (s.stages_conclude _)
    · rename_i frame hframe
      exact s.proceeds_beginSend (.request kind bound hframe) rfl rfl
  | handshake application url =>
    unfold beginCall
    generalize htimeout : s.config.handshakeTimeout = timeout
    cases timeout with
    | error reason => exact hended (s.stages_conclude _)
    | ok bound =>
      dsimp only [beginHandshake, beginRequest]
      split
      · exact hended (s.stages_conclude _)
      · rename_i frame hframe
        exact s.proceeds_beginSend (.handshake htimeout hframe) rfl rfl
  | submit id script seconds =>
    dsimp only [beginCall, beginSubmit]
    split
    · exact hended (s.stages_conclude _)
    · rename_i frame hframe
      exact s.proceeds_beginSend (.submit id script seconds hframe) rfl rfl
  | execute script =>
    have hfirst : s.beginCall t (.execute script) =
        s.nextId.2.beginSubmit t s.nextId.1 script s.config.statementTimeoutSeconds := rfl
    rw [hfirst]
    dsimp only [beginSubmit]
    split
    · exact hended (stages_conclude _ _)
    · rename_i frame hframe
      exact s.proceeds_beginSend (.execute script hframe) rfl rfl
  | ping => exact s.proceeds_beginSend .ping rfl rfl
  | close =>
    refine .of_set ?_ .close
    change (s.stopKeepAlive.fail.joinLine t |>.setStage t .closing).roster.stages = _
    rw [roster_setStage]
    change s.stopKeepAlive.fail.roster.stages.set t .closing = _
    rw [roster_fail, roster_stopKeepAlive, Roster.stop_stages, Roster.shut_stages]
  | keepAlive period =>
    refine .of_set ?_ (.pings period (Clock.next s.now (s.now * Clock.tick) period))
    exact congrArg Roster.stages (s.roster_setStage t _)

/-- A call that wants to write a frame that is not too large joins the line in its first turn. -/
theorem stages_beginCall {call : LinkCall} {purpose : Purpose} {frame : Frame}
    {handler : Option Handler} (hwrites : s.Writes call purpose frame handler)
    (hsize : frame.payload.length ≤ s.codec.limit) :
    (s.beginCall t call).1.roster.stages =
      s.roster.stages.set t (.sending purpose (.inLine frame handler)) := by
  cases hwrites with
  | send => exact s.stages_beginSend_of_le _ _ hsize
  | request kind bound hframe =>
    dsimp only [beginCall, beginRequest]
    rw [hframe]
    exact stages_beginSend_of_le _ _ _ hsize
  | handshake hbound hframe =>
    unfold beginCall
    rw [hbound]
    dsimp only [beginHandshake, beginRequest]
    rw [hframe]
    exact stages_beginSend_of_le _ _ _ hsize
  | submit id script seconds hframe =>
    dsimp only [beginCall, beginSubmit]
    rw [hframe]
    exact stages_beginSend_of_le _ _ _ hsize
  | execute script hframe =>
    have hfirst : s.beginCall t (.execute script) =
        s.nextId.2.beginSubmit t s.nextId.1 script s.config.statementTimeoutSeconds := rfl
    rw [hfirst]
    dsimp only [beginSubmit]
    rw [hframe]
    exact stages_beginSend_of_le _ _ _ hsize
  | ping => exact s.stages_beginSend_of_le _ _ hsize

/-- A call that is not told to end takes one step of its course. -/
theorem proceeds_taskTurn {label : Option Nat} (htask : s.tasks[t]? = some ⟨label, stage, false⟩) :
    s.Proceeds (s.taskTurn t).1 t stage := by
  have hstage : s.roster.stages[t]? = some stage := stage_of_task htask
  unfold taskTurn
  rw [htask]
  dsimp only
  rw [if_neg (by simp)]
  cases stage with
  | called call => exact s.proceeds_beginCall call
  | sending purpose step => exact s.proceeds_sendTurn hstage
  | replying key bound use deadline => exact s.proceeds_replyTurn key bound use deadline hstage
  | closing => exact s.proceeds_closing hstage
  | pulling key call => exact s.proceeds_pullTurn key call hstage
  | watching key bound deadline => exact s.proceeds_watchTurn key bound deadline hstage
  | pausing period due => exact s.proceeds_pauseTurn period due hstage
  | ended => exact .of_same hstage rfl

/-! ### The reader -/

/-- Closing a link moves no call. -/
theorem stages_shutdown : s.shutdown.roster.stages = s.roster.stages := by
  rw [roster_shutdown, Roster.shut_stages]

/-- Reading on moves no call. -/
theorem stages_readMore : s.readMore.1.roster.stages = s.roster.stages := by
  unfold readMore
  split
  · exact s.stages_shutdown
  · split
    · rfl
    · rfl
    · rfl
    · exact stages_shutdown _

/-- Taking a frame moves no call. -/
theorem stages_readFrame : s.readFrame.1.roster.stages = s.roster.stages := by
  unfold readFrame
  split
  · exact stages_readMore _
  · dsimp only
    unfold takeMatch
    dsimp only
    split
    · rename_i hmatch
      split at hmatch <;> cases hmatch
      rfl
    · rename_i hmatch
      split at hmatch <;> cases hmatch
      rfl

/-- Putting a handler back moves no call. -/
theorem stages_putBack (key : Nat) : (s.putBack key).roster.stages = s.roster.stages := by
  unfold putBack
  dsimp only
  split
  · rfl
  · unfold requeue
    split
    · rw [roster_letGo]
      rfl
    · rfl

/-- Decoding a payload moves no call. -/
theorem stages_decodePayload (handler : Handler) (payload : List UInt8) :
    (s.decodePayload handler payload).roster.stages = s.roster.stages := by
  unfold decodePayload
  split
  · rw [roster_setReader, roster_changeReply]
    rfl
  · split
    · rw [roster_setReader, roster_changeChannel]
      rfl
    · rw [stages_putBack, roster_changeChannel]
      rfl

/-- Storing a row moves no call. -/
theorem stages_storeRow (key : Nat) (row : Row) :
    (s.storeRow key row).1.roster.stages = s.roster.stages := by
  unfold storeRow
  dsimp only
  split
  · rw [stages_putBack, roster_changeChannel]
    rfl
  · rw [roster_changeChannel]
    rfl

/-- Cutting off the reader moves no call. -/
theorem stages_dropReader : s.dropReader.roster.stages = s.roster.stages := by
  unfold dropReader
  dsimp only
  split
  · rw [roster_letGo, Roster.letGo_stages]
    rfl
  · rw [roster_changeChannel]
    rfl
  · rfl

/-- The reader moves no call. -/
theorem stages_readerTurn : s.readerTurn.1.roster.stages = s.roster.stages := by
  unfold readerTurn
  split
  · exact s.stages_dropReader
  · split
    · exact s.stages_readFrame
    · exact s.stages_decodePayload ..
    · exact s.stages_storeRow ..
    · rfl

/-! ### Any action -/

/-- Releasing a link moves no call. -/
theorem stages_releaseUnused : s.releaseUnused.roster.stages = s.roster.stages := by
  rcases s.roster_releaseUnused with hroster | hroster
  · rw [hroster]
  · rw [hroster, Roster.stop_stages, Roster.shut_stages]

/-- Whether an action begins a call at a stage. -/
def Begins (s : Link) : Action → Stage → Prop
  | .call _ call _, stage => stage = .called call
  | .statement _ frame _ _ _, stage =>
    stage = .called (.send frame (some (.statement s.channels.length)))
  | .reply _ frame _, stage => stage = .called (.send frame (some (.reply s.replies.length)))
  | .pull _ _ _ _, stage => ∃ key call, stage = .pulling key call
  | .watch _ key bound, stage => ∃ deadline, stage = .watching key bound deadline
  | .turn (.task _), stage => ∃ period, stage = .called (.keepAlive period)
  | _, _ => False

/-- A call begins at a first stage. -/
theorem isFirst_of_begins {action : Action} {stage : Stage} (h : s.Begins action stage) :
    stage.isFirst := by
  cases action with
  | call label call hplain => exact h ▸ rfl
  | statement label frame id capacity bound => exact h ▸ rfl
  | reply label frame kind => exact h ▸ rfl
  | pull label channel pull bound =>
    obtain ⟨key, call, rfl⟩ := h
    rfl
  | watch label reply bound =>
    obtain ⟨deadline, rfl⟩ := h
    rfl
  | turn actor =>
    cases actor with
    | reader => cases h
    | task t =>
      obtain ⟨period, rfl⟩ := h
      rfl
  | _ => cases h

/-- How a call has come to stand at a stage after an action. -/
inductive Comes (s : Link) (action : Action) (u : Nat) (new : Stage) : Prop
  | begun (hnone : s.roster.stages[u]? = none) (hbegins : s.Begins action new)
  | kept (hstage : s.roster.stages[u]? = some new)
  | stepped {label : Option Nat} {stage : Stage} (haction : action = .turn (.task u))
    (htask : s.tasks[u]? = some ⟨label, stage, false⟩) (hcourse : s.Course u stage new)
  | dropped (hended : new = .ended)

variable {action : Action} {u : Nat} {new : Stage}

/-- A call stands where it stood if no call has moved. -/
theorem Comes.of_same (hnext : next.roster.stages = s.roster.stages)
    (hnew : next.roster.stages[u]? = some new) : s.Comes action u new :=
  .kept (hnext ▸ hnew)

/-- Calls that are begun come behind the others. -/
theorem Comes.of_append {more : List Stage} (hmore : ∀ added ∈ more, s.Begins action added)
    (hnew : (s.roster.stages ++ more)[u]? = some new) : s.Comes action u new := by
  cases hbefore : s.roster.stages[u]? with
  | none =>
    rcases Lists.of_getElem?_append hnew with hin | hin
    · rw [hbefore] at hin
      cases hin
    · exact .begun hbefore (hmore new hin)
  | some stage =>
    rw [List.getElem?_append_left (List.getElem?_eq_some_iff.mp hbefore).1] at hnew
    exact .kept hnew

/-- When a call is added it begins, and the others stand where they stood. -/
theorem Comes.of_addTask (opened : Link) {label : Option Nat} {first : Stage}
    (hopened : opened.roster.stages = s.roster.stages) (hbegins : s.Begins action first)
    (hnew : (opened.addTask label first).roster.stages[u]? = some new) : s.Comes action u new := by
  rw [roster_addTask, hopened] at hnew
  exact .of_append s (by simpa using hbegins) hnew

/-- A call that is ended wherever it stands, and no other one. -/
theorem Comes.of_dropTask (hnew : (s.dropTask t stage).roster.stages[u]? = some new) :
    s.Comes action u new := by
  have hdropped : (s.dropTask t stage).roster.stages = s.roster.stages.set t .ended := by
    have hleft : ((s.leaveLine t).setStage t .ended).roster.stages =
        s.roster.stages.set t .ended := by
      rw [roster_setStage, roster_leaveLine]
      rfl
    unfold dropTask
    dsimp only
    split
    · rw [roster_letGo, Roster.letGo_stages, hleft]
    · rw [roster_giveUp, Roster.giveUp_stages, roster_letGo, Roster.letGo_stages, hleft]
    · rw [roster_giveUp, Roster.giveUp_stages, hleft]
    · exact hleft
    · rw [roster_changeChannel]
      exact hleft
    · exact hleft
  rw [hdropped] at hnew
  rcases Lists.of_getElem?_set hnew with ⟨-, hended⟩ | ⟨-, hsame⟩
  · exact .dropped hended
  · exact .kept hsame

/-- In its turn a call comes along its course, and the others stand where they stood. -/
theorem Comes.of_taskTurn (hnew : (s.taskTurn t).1.roster.stages[u]? = some new) :
    s.Comes (.turn (.task t)) u new := by
  cases htask : s.tasks[t]? with
  | none =>
    refine .of_same s ?_ hnew
    unfold taskTurn
    rw [htask]
  | some task =>
    obtain ⟨label, stage, isAborted⟩ := task
    cases isAborted with
    | true =>
      unfold taskTurn at hnew
      rw [htask] at hnew
      exact .of_dropTask s hnew
    | false =>
      obtain ⟨after, more, hstages, hmore, hcourse⟩ := s.proceeds_taskTurn htask
      rw [hstages] at hnew
      rcases Lists.of_getElem?_set hnew with ⟨rfl, rfl⟩ | ⟨-, hother⟩
      · exact .stepped rfl htask hcourse
      · exact .of_append s hmore hother

/-- Who can go on does not matter for what a call writes. -/
theorem Writes.with_ready {call : LinkCall} {purpose : Purpose} {frame : Frame}
    {handler : Option Handler} (h : s.Writes call purpose frame handler) (ready : List Actor) :
    ({ s with ready := ready } : Link).Writes call purpose frame handler := by
  cases h with
  | send => exact .send _ _
  | request kind bound hframe => exact .request kind bound hframe
  | handshake hbound hframe => exact .handshake hbound hframe
  | submit id script seconds hframe => exact .submit id script seconds hframe
  | execute script hframe => exact .execute script hframe
  | ping => exact .ping

/-- Who can go on does not matter for a step that is taken. -/
theorem Course.of_ready {ready : List Actor}
    (h : ({ s with ready := ready } : Link).Course t stage new) : s.Course t stage new := by
  cases h with
  | wait => exact .wait _
  | finish => exact .finish _
  | queue hwrites hsize => exact .queue (hwrites.with_ready _ s.ready) hsize
  | close => exact .close
  | pings period due => exact .pings period due
  | nextPing period due next => exact .nextPing period due next
  | enter hwriter hopen => exact .enter hwriter hopen
  | encode hroom hsize => exact .encode hroom hsize
  | await key bound use deadline => exact .await key bound use deadline
  | pause period next => exact .pause period next
  | pull hchannel hagain => exact .pull hchannel hagain

/-- The end of a turn moves no call. -/
theorem stages_turnOf (actor : Actor) :
    (s.turnOf actor).roster.stages =
      match actor with
      | .reader => s.roster.stages
      | .task t =>
        (({ s with ready := s.ready.erase actor } : Link).taskTurn t).1.roster.stages := by
  have hwhole (after : Link × Bool) :
      (if after.2 then { after.1 with ready := actor :: after.1.ready.erase actor }
        else after.1).releaseUnused.roster.stages = after.1.roster.stages := by
    rw [stages_releaseUnused]
    split <;> rfl
  cases actor with
  | reader =>
    exact (hwhole _).trans (stages_readerTurn { s with ready := s.ready.erase .reader })
  | task t => exact hwhole _

/-- In a turn of whoever it is, only the call whose turn it is may move. -/
theorem Comes.of_turnOf {actor : Actor} (hnew : (s.turnOf actor).roster.stages[u]? = some new) :
    s.Comes (.turn actor) u new := by
  rw [stages_turnOf] at hnew
  cases actor with
  | reader => exact .kept hnew
  | task t =>
    let woken : Link := { s with ready := s.ready.erase (.task t) }
    have hcomes : woken.Comes (.turn (.task t)) u new := .of_taskTurn woken hnew
    cases hcomes with
    | begun hnone hbegins => exact .begun hnone hbegins
    | kept hstage => exact .kept hstage
    | stepped haction htask hcourse => exact .stepped haction htask (.of_ready s hcourse)
    | dropped hended => exact .dropped hended

/-- Whatever is done with a link, a call has kept its stage, has begun, has been ended, or has taken
one step of its course in a turn of its own. -/
theorem comes_act (hnew : (s.act action).roster.stages[u]? = some new) : s.Comes action u new := by
  have hsame {next : Link} (hroster : next.roster = s.roster)
      (hnew : next.roster.stages[u]? = some new) : s.Comes action u new :=
    .of_same s (congrArg Roster.stages hroster) hnew
  cases action with
  | arrive item => exact hsame (s.roster_arrive item) hnew
  | setMode mode => exact hsame (s.roster_setMode mode) hnew
  | call label call hplain => exact .of_addTask s s rfl rfl hnew
  | statement label frame id capacity bound =>
    exact .of_addTask s (s.addChannel _) rfl rfl hnew
  | reply label frame kind => exact .of_addTask s (s.addReply kind) rfl rfl hnew
  | pull label channel pull bound =>
    dsimp only [act, startPull] at hnew
    split at hnew
    · exact .kept hnew
    · exact .of_addTask s s rfl ⟨_, _, rfl⟩ hnew
  | watch label reply bound => exact .of_addTask s s rfl ⟨_, rfl⟩ hnew
  | next channel =>
    dsimp only [act, Link.next] at hnew
    split at hnew
    · exact .kept hnew
    · rw [roster_changeChannel] at hnew
      exact .kept hnew
  | dropResponse channel =>
    dsimp only [act, dropResponse] at hnew
    rw [roster_changeChannel] at hnew
    exact .kept hnew
  | cancel label =>
    dsimp only [act, cancel?] at hnew
    cases hfind : s.tasks.findIdx? fun task => task.label == some label && !task.stage.isEnded with
    | none =>
      rw [hfind] at hnew
      exact .kept hnew
    | some t =>
      cases htask : s.tasks[t]? with
      | none =>
        rw [hfind, Option.bind_some, htask] at hnew
        exact .kept hnew
      | some task =>
        rw [hfind, Option.bind_some, htask] at hnew
        dsimp only [Option.map_some, Option.getD_some] at hnew
        rw [stages_releaseUnused] at hnew
        exact .of_dropTask s hnew
  | allocate count => exact hsame (s.roster_nextIds count) hnew
  | markOpen => exact hsame s.roster_markOpen hnew
  | giveAway =>
    dsimp only [act, giveAway] at hnew
    rw [stages_releaseUnused] at hnew
    exact .kept hnew
  | pass gap => exact hsame (s.roster_pass gap) hnew
  | turn actor => exact .of_turnOf s hnew

end Link

end BeeProtocol
