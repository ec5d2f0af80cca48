import BeeProtocol.Link.Calling
import BeeProtocol.Link.Reading
import BeeProtocol.Time.Schedule

/-!
# What happens to a link from outside

Calls are started and cancelled, bytes arrive, the outgoing stream changes its mode, time passes,
and the owner may give the link up. Then the reader and the calls take their turns in the order in
which they were woken. A link that its owner has given up is closed as soon as no call uses it any
more.
-/

namespace BeeProtocol.Link

/-! ### The end of a link that nobody uses -/

/-- Whether a call of the owner uses the link. -/
def isInUse (s : Link) : Bool :=
  s.tasks.any fun task => task.stage.usesWriter && !task.stage.isPinging

/-- Closes a link that was given up and that no call uses; a ping under way is ended first. -/
def releaseUnused (s : Link) : Link :=
  if s.isHeld || s.isInUse then s
  else
    let s := s.stopKeepAlive
    if s.tasks.any (·.stage.isPinging) then s else s.fail

/-! ### Actions -/

/-- Something arrives from the peer. A chunk without bytes is nothing. -/
def arrive (s : Link) (item : Inbound) : Link :=
  match item with
  | .bytes [] => s
  | item =>
    let s := { s with inbound := s.inbound ++ [item] }
    match s.reader.stage with
    | .reading => s.wake .reader
    | _ => s

/-- The outgoing stream changes its mode, and who has the writer tries again. -/
def setMode (s : Link) (mode : StreamMode) : Link :=
  let s := { s with writer := { s.writer with mode := mode } }
  match s.line with
  | key :: _ => s.wake (.task key)
  | [] => s

/-- Starts a call. -/
def start (s : Link) (label : Nat) (call : LinkCall) : Link := s.addTask (some label) (.called call)

/-- Starts a call on a response. -/
def startPull (s : Link) (label channel : Nat) (pull : Pull) (bound : Option Duration) : Link :=
  match s.channels[channel]? with
  | none => s
  | some c => s.addTask (some label) (.pulling channel (.start s.now pull (bound.getD c.bound)))

/-- Starts to wait for a single reply. -/
def startWatch (s : Link) (label reply : Nat) (bound : Option Duration) : Link :=
  s.addTask (some label) (.watching reply bound (bound.map (Clock.after s.now)))

/-- Takes the next row of a response without waiting. -/
def next (s : Link) (channel : Nat) : Except ClientError Row × Link :=
  match s.channels[channel]? with
  | none => (.error .emptyResult, s)
  | some c => (c.take.1, s.changeChannel channel fun c => c.take.2)

/-- Drops a response. -/
def dropResponse (s : Link) (channel : Nat) : Link := s.changeChannel channel Channel.drop

/-- Cancels the call with a label; `none` if it is not going on. -/
def cancel? (s : Link) (label : Nat) : Option Link :=
  (s.tasks.findIdx? fun task => task.label == some label && !task.stage.isEnded).bind fun key =>
    (s.tasks[key]?).map fun task =>
      let s := s.dropTask key task.stage
      { s with ready := s.ready.filter (· != Actor.task key) }.releaseUnused

/-- The owner gives the link up. -/
def giveAway (s : Link) : Link := { s with isHeld := false }.releaseUnused

/-- Allocates statement ids one after another and answers the last of them, 0 if there is none. -/
def nextIds (s : Link) : Nat → UInt16 × Link
  | 0 => (0, s)
  | 1 => s.nextId
  | count + 2 => (s.nextId.2).nextIds (count + 1)

/-! ### Turns and time -/

/-- Lets somebody take a turn. Who can go on further stays in front. -/
def turnOf (s : Link) (actor : Actor) : Link :=
  let s := { s with ready := s.ready.erase actor }
  let (s, goesOn) :=
    match actor with
    | .reader => s.readerTurn
    | .task key => s.taskTurn key
  let s := if goesOn then { s with ready := actor :: s.ready.erase actor } else s
  s.releaseUnused

/-- Lets time pass and wakes the calls whose deadlines are due. -/
def pass (s : Link) (gap : Nat) : Link :=
  let s := { s with now := s.now + gap }
  s.wakeTasks fun stage => stage.deadline?.any (Clock.isDue s.now)

/-- The sum of a count over a list. -/
def total {α : Type} (count : α → Nat) (items : List α) : Nat :=
  items.foldl (fun n item => n + count item) 0

/-- A bound for the number of turns that can be taken without new input or time. -/
def turnBound (s : Link) : Nat :=
  let bytes := s.reader.buffer.length + total Inbound.size s.inbound + s.inbound.length
  let rows := total (fun c => c.rows.length) s.channels
  let pings := total (fun task => task.stage.duePings s.now) s.tasks
  16 * (bytes + rows + pings + s.tasks.length + 8) * (s.tasks.length + 2)

instance : Schedule Link where
  isBusy s := !s.ready.isEmpty
  turn s := s.ready.head?.elim s s.turnOf
  work s := s.turnBound
  untilDeadline s :=
    (s.tasks.filterMap fun task => task.stage.deadline?.map (Clock.untilDue s.now)).min?
  pass gap s := s.pass gap

end BeeProtocol.Link
