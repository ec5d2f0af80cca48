import BeeProtocol.Frame.Scanner
import BeeProtocol.Link.Writer
import BeeProtocol.Promise.ReplyHandler
import BeeProtocol.Statement.Pull
import BeeProtocol.Text.Quoted

/-!
# Links

A link is one connection with all that is going on over it: the handlers that wait for frames, the
task that reads the incoming bytes, the writer with the line of calls that want it, and the calls in
progress. It is a plain value; the other modules of this folder say how it changes when a call or
the reader takes its turn.
-/

namespace BeeProtocol

/-- How far the life of a link has come. A closed link never opens again. -/
inductive LinkPhase
  | connecting
  | opened
  | closed
  deriving DecidableEq

/-- The name of a phase in diagnostics. -/
def LinkPhase.name : LinkPhase → String
  | connecting => "Connecting"
  | opened => "Open"
  | closed => "Closed"

/-- A handler that waits for frames: the one of a statement or of a single reply, under its key. -/
inductive Handler
  | statement (key : Nat)
  | reply (key : Nat)
  deriving DecidableEq

/-- What arrives from the peer. -/
inductive Inbound
  | bytes (bytes : List UInt8)
  | ended
  | failed (reason : String)

/-- The number of bytes in an item that arrived. -/
def Inbound.size : Inbound → Nat
  | .bytes chunk => chunk.length
  | _ => 0

/-- What the reader does. -/
inductive ReaderStage
  /-- It looks for a frame. -/
  | reading
  /-- It holds a handler and the payload that was taken for it. -/
  | decoding (handler : Handler) (payload : List UInt8)
  /-- It holds the handler of a statement and a row to store. -/
  | storing (key : Nat) (row : Row)
  /-- It has ended. -/
  | stopped

/-- The task that reads incoming bytes. -/
structure Reader where
  /-- Bytes that hold no frame yet. -/
  buffer : List UInt8
  /-- Whether the end of the stream was read. -/
  isAtEnd : Bool
  /-- What the reader is doing. -/
  stage : ReaderStage
  /-- Whether it ends at its next turn. -/
  isAborted : Bool

/-- What a call wants of a link. -/
inductive LinkCall
  /-- Write a frame, after registering a handler for its answer. -/
  | send (frame : Frame) (handler : Option Handler)
  /-- Write a message and wait for a single reply. -/
  | request (message : Message) (kind : MessageKind) (bound : Duration)
  | handshake (application url : String)
  | submit (id : UInt16) (script : String) (seconds : UInt32)
  /-- Submit with the next statement id and the configured timeout. -/
  | execute (script : String)
  | ping
  | close
  /-- Send a ping after every period. -/
  | keepAlive (period : Duration)

/-- What a single reply is waited for. -/
inductive ReplyUse
  | request
  | handshake
  deriving DecidableEq

/-- Why a call writes a frame. -/
inductive Purpose
  /-- The frame is all. -/
  | plain
  /-- A reply is expected under this key and within this bound. -/
  | reply (key : Nat) (bound : Duration) (use : ReplyUse)
  /-- The response under this key is handed out. -/
  | statement (key : Nat)
  /-- The next ping is due at this instant. -/
  | keepAlive (period : Duration) (next : Nat)

/-- How far the writing of a frame has come. -/
inductive SendStep
  /-- It waits in line for the writer. -/
  | inLine (frame : Frame) (handler : Option Handler)
  /-- It has the writer, and older bytes may have to go out first. -/
  | holding (frame : Frame)
  /-- It has the writer, and the frame is in the out-buffer. -/
  | flushing

/-- Where a call stands. -/
inductive Stage
  | called (call : LinkCall)
  | sending (purpose : Purpose) (step : SendStep)
  | replying (key : Nat) (bound : Duration) (use : ReplyUse) (deadline : Nat)
  /-- It waits in line in order to shut the writer down. -/
  | closing
  | pulling (key : Nat) (call : PullCall)
  | watching (key : Nat) (bound : Option Duration) (deadline : Option Nat)
  /-- It waits for the instant of the next ping. -/
  | pausing (period : Duration) (due : Nat)
  | ended

namespace Stage

/-- Whether a call at this stage waits for something of a channel. -/
def isPulling (channel : Nat) : Stage → Bool
  | pulling key _ => key == channel
  | _ => false

/-- Whether a call at this stage waits for a single reply. -/
def isWaitingFor (reply : Nat) : Stage → Bool
  | replying key _ _ _ => key == reply
  | watching key _ _ => key == reply
  | _ => false

/-- Whether the call has ended. -/
def isEnded : Stage → Bool
  | ended => true
  | _ => false

/-- The deadline of a call that waits at this stage. -/
def deadline? : Stage → Option Nat
  | replying _ _ _ deadline => some deadline
  | pulling _ call => call.deadline
  | watching _ _ deadline => deadline
  | pausing _ due => some due
  | _ => none

/-- How many pings of a call at this stage are due. -/
def duePings (now : Nat) : Stage → Nat
  | pausing period due => (now * Clock.tick - due) / (period.nanos + 1) + 1
  | _ => 0

/-- Whether a call at this stage keeps the writer's side of the link in use. -/
def usesWriter : Stage → Bool
  | called (.keepAlive _) => false
  | called _ => true
  | sending _ _ => true
  | replying _ _ _ _ => true
  | closing => true
  | _ => false

/-- Whether the task at this stage is in the middle of a ping that nobody called for. -/
def isPinging : Stage → Bool
  | sending (.keepAlive _ _) _ => true
  | _ => false

end Stage

/-- A call in progress; without a label it reports to nobody. -/
structure Task where
  /-- Whom the call reports to. -/
  label : Option Nat
  /-- What the call is doing. -/
  stage : Stage
  /-- Whether it ends at its next turn. -/
  isAborted : Bool

/-- What a call ends with. -/
inductive LinkResult
  | ok
  | closed
  | message (message : Message)
  /-- The response under this key. -/
  | response (key : Nat)
  | pulled (result : PullResult)
  | failed (reason : ClientError)
  | overflow (reason : DurationOverflow)

/-- Who can take a turn. -/
inductive Actor
  | reader
  | task (key : Nat)
  deriving DecidableEq

/-- One connection and all that is going on over it. -/
structure Link where
  /-- The milliseconds since the link was made. -/
  now : Nat
  /-- The settings. -/
  config : Config
  /-- Whether the link is connecting, open or closed. -/
  phase : LinkPhase
  /-- The handlers that wait for frames, in the order in which frames are offered to them. -/
  pending : List Handler
  /-- The channels of all statements, by key. -/
  channels : List Channel
  /-- The handlers of all single replies, by key. -/
  replies : List ReplyHandler
  /-- What has arrived and was not read, oldest first. -/
  inbound : List Inbound
  /-- The task that reads. -/
  reader : Reader
  /-- The outgoing side of the stream. -/
  writer : Writer
  /-- The tasks that want the writer; the first one has it. -/
  line : List Nat
  /-- All calls, by key. -/
  tasks : List Task
  /-- Who can go on, in the order in which they were woken. -/
  ready : List Actor
  /-- The latest statement id that was allocated. -/
  lastId : Nat
  /-- The task that sends pings, if one was started and not aborted. -/
  keepAlive : Option Nat
  /-- Whether the owner has not given the link up. -/
  isHeld : Bool
  /-- The calls that have ended, oldest first. -/
  finished : List (Nat × LinkResult)

namespace Link

/-- A link over a fresh byte stream, whose reader is about to start. -/
def fresh (config : Config) : Link where
  now := 0
  config := config
  phase := .connecting
  pending := []
  channels := []
  replies := []
  inbound := []
  reader := ⟨[], false, .reading, false⟩
  writer := .fresh
  line := []
  tasks := []
  ready := [.reader]
  lastId := 0
  keepAlive := none
  isHeld := true
  finished := []

/-- The limit for payloads in both directions. -/
def codec (s : Link) : Codec := .withLimit s.config.frameLimit

/-- Whether the link is closed. -/
def isClosed (s : Link) : Bool := s.phase == .closed

/-- The diagnostic text of the frame layer. -/
def summary (s : Link) : String :=
  "Transport \x7b state: " ++ s.phase.name ++ ", pending: " ++ toString s.pending.length ++ " \x7d"

/-- The diagnostic text of the connection. -/
def connectionSummary (s : Link) : String :=
  "Connection \x7b address: " ++ Quoted.quote s.config.address ++ ", state: " ++ s.phase.name ++
    " \x7d"

/-! ### Waking and changing parts -/

/-- Wakes somebody. -/
def wake (s : Link) (actor : Actor) : Link :=
  if s.ready.contains actor then s else { s with ready := s.ready ++ [actor] }

/-- Wakes the tasks at the stages that a test accepts. -/
def wakeTasks (s : Link) (test : Stage → Bool) : Link :=
  (s.tasks.zipIdx.filter fun (task, _) => test task.stage).foldl
    (fun s (_, key) => s.wake (.task key)) s

/-- Puts a task at a stage. -/
def setStage (s : Link) (key : Nat) (stage : Stage) : Link :=
  { s with tasks := s.tasks.modify key fun task => { task with stage := stage } }

/-- Changes a channel and wakes whom the change concerns. -/
def changeChannel (s : Link) (key : Nat) (change : Channel → Channel) : Link :=
  match s.channels[key]? with
  | none => s
  | some before =>
    let after := change before
    let s := { s with channels := s.channels.set key after }
    let s := if before.tellsCallers after then s.wakeTasks (·.isPulling key) else s
    if before.tellsHandler after then s.wake .reader else s

/-- Changes the handler of a single reply and wakes the calls that wait for it if it is complete
now. -/
def changeReply (s : Link) (key : Nat) (change : ReplyHandler → ReplyHandler) : Link :=
  match s.replies[key]? with
  | none => s
  | some before =>
    let after := change before
    let s := { s with replies := s.replies.set key after }
    if !before.promise.isComplete && after.promise.isComplete then
      s.wakeTasks (·.isWaitingFor key)
    else s

/-- Opens a channel; its key is the number of channels before. -/
def addChannel (s : Link) (channel : Channel) : Link :=
  { s with channels := s.channels ++ [channel] }

/-- Adds the handler of a single reply; its key is the number of them before. -/
def addReply (s : Link) (kind : MessageKind) : Link :=
  { s with replies := s.replies ++ [.ofKind kind] }

/-- Adds a task and wakes it; its key is the number of tasks before. -/
def addTask (s : Link) (label : Option Nat) (stage : Stage) : Link :=
  { s with tasks := s.tasks ++ [Task.mk label stage false] }.wake (.task s.tasks.length)

/-- Ends a task with a result. -/
def conclude (s : Link) (key : Nat) (result : LinkResult) : Link :=
  match s.tasks[key]? with
  | none => s
  | some task =>
    { s.setStage key .ended with
      finished := s.finished ++ task.label.toList.map fun label => (label, result) }

end Link

end BeeProtocol
