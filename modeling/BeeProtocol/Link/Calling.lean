import BeeProtocol.Link.Registry

/-!
# The calls' turns

A call that writes a frame checks its size, waits in line for the writer, registers its handler,
puts the frame into the out-buffer and stays with the writer until all bytes are out. A failure to
write closes the link. Some calls then wait for a reply or hand out a response.
-/

namespace BeeProtocol.Link

/-! ### The line for the writer -/

/-- A task joins the line for the writer. -/
def joinLine (s : Link) (key : Nat) : Link := { s with line := s.line ++ [key] }

/-- Whether a task has the writer. -/
def hasWriter (s : Link) (key : Nat) : Bool := s.line.head? == some key

/-- A task leaves the line; if it had the writer, the next one is woken. -/
def leaveLine (s : Link) (key : Nat) : Link :=
  let rest := s.line.filter (· != key)
  let left := { s with line := rest }
  match rest with
  | next :: _ => if s.hasWriter key then left.wake (.task next) else left
  | [] => left

/-! ### Writing a frame -/

/-- What a call gives up when it ends before its purpose is reached. -/
def giveUp (s : Link) : Purpose → Link
  | .reply key _ _ => s.unregister (.reply key)
  | .statement key => s.changeChannel key Channel.drop
  | _ => s

/-- A call that writes fails. -/
def failSend (s : Link) (key : Nat) (purpose : Purpose) (reason : ClientError) : Link :=
  (s.giveUp purpose).conclude key (.failed reason)

/-- A call starts to write a frame, unless the payload is over the limit. -/
def beginSend (s : Link) (key : Nat) (purpose : Purpose) (frame : Frame)
    (handler : Option Handler) : Link × Bool :=
  let size := frame.payload.length
  if s.codec.limit < size then
    let reason := ClientError.ofProtocol (.frameTooLarge size s.codec.limit)
    ((handler.elim s s.letGo).failSend key purpose reason, false)
  else ((s.joinLine key).setStage key (.sending purpose (.inLine frame handler)), true)

/-- The frame of a call that has the writer cannot be written: the link is closed. -/
def failWrite (s : Link) (key : Nat) (purpose : Purpose) (reason : ProtocolError) : Link :=
  (s.leaveLine key).fail.failSend key purpose (.ofProtocol reason)

/-- A call that has the writer registers its handler; a closed link refuses it. -/
def enter (s : Link) (key : Nat) (purpose : Purpose) (frame : Frame)
    (handler : Option Handler) : Link × Bool :=
  let closed := s.isClosed
  let s := handler.elim s s.register
  if closed then ((s.leaveLine key).failSend key purpose .connectionClosed, false)
  else (s.setStage key (.sending purpose (.holding frame)), true)

/-- What a call does once its frame is out. -/
def afterSend (s : Link) (key : Nat) : Purpose → Link × Bool
  | .plain => (s.conclude key .ok, false)
  | .reply reply bound use =>
    (s.setStage key (.replying reply bound use (Clock.after s.now bound)), true)
  | .statement channel => (s.conclude key (.response channel), false)
  | .keepAlive period next => (s.setStage key (.pausing period next), true)

/-- Lets a call that writes take its turn. -/
def sendTurn (s : Link) (key : Nat) (purpose : Purpose) : SendStep → Link × Bool
  | .inLine frame handler =>
    if s.hasWriter key then s.enter key purpose frame handler else (s, false)
  | .holding frame =>
    if s.writer.outbox.length < Writer.boundary then
      match s.codec.encode frame with
      | .ok bytes =>
        ({ s with writer := s.writer.put bytes }.setStage key (.sending purpose .flushing), true)
      | .error reason => (s.failWrite key purpose reason, false)
    else
      let (writer, result) := s.writer.flush
      let s := { s with writer := writer }
      match result with
      | .done => (s, true)
      | .stalled => (s, false)
      | .failed reason => (s.failWrite key purpose (.io reason), false)
  | .flushing =>
    let (writer, result) := s.writer.flush
    let s := { s with writer := writer }
    match result with
    | .done => (s.leaveLine key).afterSend key purpose
    | .stalled => (s, false)
    | .failed reason => (s.failWrite key purpose (.io reason), false)

/-! ### Pings at intervals -/

/-- Ends the task that sends pings at its next turn. -/
def stopKeepAlive (s : Link) : Link :=
  match s.keepAlive with
  | none => s
  | some key =>
    { s with
      keepAlive := none
      tasks := s.tasks.modify key fun task => { task with isAborted := true } }.wake (.task key)

/-- Starts to send pings in place of an earlier task, if an interval is set. -/
def startKeepAlive (s : Link) : Link :=
  match s.config.keepAliveInterval with
  | none => s
  | some period =>
    if period.nanos = 0 then s
    else
      let key := s.tasks.length
      { (s.addTask none (.called (.keepAlive period))).stopKeepAlive with keepAlive := some key }

/-- The frame of a ping. -/
def pingFrame : Frame := ⟨MessageKind.ping.frameType, [0]⟩

/-- Lets the task that sends pings take its turn between two pings. -/
def pauseTurn (s : Link) (key : Nat) (period : Duration) (due : Nat) : Link × Bool :=
  if Clock.isDue s.now due then
    if s.isClosed then (s.setStage key .ended, false)
    else s.beginSend key (.keepAlive period (Clock.next s.now due period)) pingFrame none
  else (s, false)

/-! ### Statement ids -/

/-- Statement ids stay below this number and wrap to 0. -/
abbrev idLimit : Nat := 65535

/-- The id that is allocated after another one. -/
def followingId (id : Nat) : Nat := if idLimit ≤ id + 1 then 0 else id + 1

/-- Allocates the next statement id. -/
def nextId (s : Link) : UInt16 × Link :=
  let id := followingId s.lastId
  (UInt16.ofNat id, { s with lastId := id })

/-! ### Replies -/

/-- The failure of a wait for a reply that passed its deadline. -/
def replyTimeout (bound : Duration) : ClientError :=
  .timeout s!"no response within {bound.text}"

/-- A handshake ends with a reply: only a rejection with a code other than 0 refuses it. -/
def concludeHandshake (s : Link) (key : Nat) (reply : Message) : Link :=
  match reply with
  | .connectResponse (.rejected error) =>
    if error.code = 0 then s.markOpen.startKeepAlive.conclude key .ok
    else s.conclude key (.failed (.application error))
  | _ => s.markOpen.startKeepAlive.conclude key .ok

/-- Lets a call that waits for its reply take its turn. -/
def replyTurn (s : Link) (key reply : Nat) (bound : Duration) (use : ReplyUse) (deadline : Nat) :
    Link :=
  match (s.replies[reply]?).bind (·.promise.outcome) with
  | some (.ok message) =>
    let s := s.unregister (.reply reply)
    match use with
    | .request => s.conclude key (.message message)
    | .handshake => s.concludeHandshake key message
  | some (.error reason) => (s.unregister (.reply reply)).conclude key (.failed reason)
  | none =>
    if Clock.isDue s.now deadline then
      (s.unregister (.reply reply)).conclude key (.failed (replyTimeout bound))
    else s

/-- Lets a call that watches a reply take its turn. -/
def watchTurn (s : Link) (key reply : Nat) (bound : Option Duration) (deadline : Option Nat) :
    Link :=
  match (s.replies[reply]?).bind (·.promise.outcome), bound, deadline with
  | some (.ok message), _, _ => s.conclude key (.message message)
  | some (.error reason), _, _ => s.conclude key (.failed reason)
  | none, some bound, some deadline =>
    if Clock.isDue s.now deadline then s.conclude key (.failed (replyTimeout bound)) else s
  | none, _, _ => s

/-! ### Calls on responses -/

/-- Ends a call on a response, which is dropped if the call took it over. -/
def concludePull (s : Link) (key channel : Nat) (pull : Pull) (result : PullResult) : Link :=
  let s := s.conclude key (.pulled result)
  if pull.consumes then s.changeChannel channel Channel.drop else s

/-- Lets a call on a response take its turn. -/
def pullTurn (s : Link) (key channel : Nat) (call : PullCall) : Link × Bool :=
  match s.channels[channel]? with
  | none => (s, false)
  | some c =>
    let (progress, after) := call.turn s.now c
    let s := s.changeChannel channel fun _ => after
    match progress with
    | .again call => (s.setStage key (.pulling channel call), true)
    | .asleep => (s, false)
    | .finished result => (s.concludePull key channel call.pull result, false)

/-! ### The first turn of a call -/

/-- Writes a message and waits for a single reply. -/
def beginRequest (s : Link) (key : Nat) (message : Message) (kind : MessageKind)
    (bound : Duration) (use : ReplyUse) : Link × Bool :=
  match message.toFrame with
  | .error reason => (s.conclude key (.failed (.ofProtocol reason)), false)
  | .ok frame =>
    let reply := s.replies.length
    (s.addReply kind).beginSend key (.reply reply bound use) frame (some (.reply reply))

/-- Submits a statement. Zero seconds leave the waits on its response to the configured timeout. -/
def beginSubmit (s : Link) (key : Nat) (id : UInt16) (script : String) (seconds : UInt32) :
    Link × Bool :=
  let bound := if seconds = 0 then s.config.statementTimeout else .ofSeconds seconds.toUInt64
  match (Message.statementRequest ⟨id.toUInt32, script, seconds⟩).toFrame with
  | .error reason => (s.conclude key (.failed (.ofProtocol reason)), false)
  | .ok frame =>
    let channel := s.channels.length
    let s := s.addChannel (.fresh id.toUInt32 s.config.rowCapacity bound)
    s.beginSend key (.statement channel) frame (some (.statement channel))

/-- Asks the server to accept the client, unless there is no limit for the wait. -/
def beginHandshake (s : Link) (key : Nat) (application url : String) :
    Except DurationOverflow Duration → Link × Bool
  | .error reason => (s.conclude key (.overflow reason), false)
  | .ok bound =>
    s.beginRequest key (.connectRequest ⟨url, application⟩) .connectResponse bound .handshake

/-- Lets a call take its first turn. -/
def beginCall (s : Link) (key : Nat) : LinkCall → Link × Bool
  | .send frame handler => s.beginSend key .plain frame handler
  | .request message kind bound => s.beginRequest key message kind bound .request
  | .handshake application url =>
    s.beginHandshake key application url s.config.handshakeTimeout
  | .submit id script seconds => s.beginSubmit key id script seconds
  | .execute script =>
    let (id, s) := s.nextId
    s.beginSubmit key id script s.config.statementTimeoutSeconds
  | .ping => s.beginSend key .plain pingFrame none
  | .close => ((s.stopKeepAlive.fail.joinLine key).setStage key .closing, true)
  | .keepAlive period =>
    (s.setStage key (.pausing period (Clock.next s.now (s.now * Clock.tick) period)), true)

/-! ### Any turn of a call -/

/-- Ends a task wherever it stands, with everything that it owns. -/
def dropTask (s : Link) (key : Nat) (stage : Stage) : Link :=
  let s := (s.leaveLine key).setStage key .ended
  match stage with
  | .called (.send _ (some handler)) => s.letGo handler
  | .sending purpose (.inLine _ (some handler)) => (s.letGo handler).giveUp purpose
  | .sending purpose _ => s.giveUp purpose
  | .replying reply _ _ _ => s.unregister (.reply reply)
  | .pulling channel _ => s.changeChannel channel Channel.drop
  | _ => s

/-- Lets a task take its turn; true if it can go on further. -/
def taskTurn (s : Link) (key : Nat) : Link × Bool :=
  match s.tasks[key]? with
  | none => (s, false)
  | some task =>
    if task.isAborted then (s.dropTask key task.stage, false)
    else
      match task.stage with
      | .called call => s.beginCall key call
      | .sending purpose step => s.sendTurn key purpose step
      | .replying reply bound use deadline => (s.replyTurn key reply bound use deadline, false)
      | .closing =>
        if s.hasWriter key then
          (({ s with writer := s.writer.shutdown }.leaveLine key).conclude key .closed, false)
        else (s, false)
      | .pulling channel call => s.pullTurn key channel call
      | .watching reply bound deadline => (s.watchTurn key reply bound deadline, false)
      | .pausing period due => s.pauseTurn key period due
      | .ended => (s, false)

end BeeProtocol.Link
