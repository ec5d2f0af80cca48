import BeeProtocol.Statement.Response
import BeeProtocol.Time.Schedule

/-!
# One statement on its own

The payloads of a statement are fed to its handler, which takes them one at a time, while a caller
pulls rows out of the response. The response has one caller: while a call uses it, it is busy.
-/

namespace BeeProtocol

/-- Who has a response. -/
inductive Holder
  /-- Nobody: a call may be started on it. -/
  | nobody
  /-- A call that gives it back when it ends. -/
  | call
  /-- It was dropped or given away for good. -/
  | gone
  deriving DecidableEq

/-- What the handler does with its current payload. -/
inductive Intake
  /-- It waits for a payload. -/
  | idle
  /-- It has taken a payload and not decoded it. -/
  | decoding (payload : List UInt8)
  /-- It has a row to store. -/
  | storing (row : Row)

/-- The two sides of a statement. -/
inductive StatementSide
  | handler
  | caller
  deriving DecidableEq

/-- A statement, its handler and its caller. -/
structure StatementSession where
  /-- The milliseconds since the start. -/
  now : Nat
  /-- What the two sides share. -/
  channel : Channel
  /-- Payloads that the handler has not taken yet. -/
  queue : List (List UInt8)
  /-- What the handler is doing. -/
  intake : Intake
  /-- How many payloads were handled completely. -/
  handled : Nat
  /-- Whether the handler has not been dropped. -/
  isAttached : Bool
  /-- Who has the response. -/
  holder : Holder
  /-- The call that uses the response, under its label. -/
  call : Option (Nat × PullCall)
  /-- The sides that can go on, in the order in which they were woken. -/
  ready : List StatementSide
  /-- The calls that have ended, oldest first. -/
  finished : List (Nat × PullResult)

namespace StatementSession

/-- A statement that has received nothing. -/
def fresh (id : UInt32) (capacity : Nat) (bound : Duration) : StatementSession where
  now := 0
  channel := .fresh id capacity bound
  queue := []
  intake := .idle
  handled := 0
  isAttached := true
  holder := .nobody
  call := none
  ready := []
  finished := []

/-- Wakes a side. -/
def wake (s : StatementSession) (side : StatementSide) : StatementSession :=
  if s.ready.contains side then s else { s with ready := s.ready ++ [side] }

/-- Changes the channel and wakes whom the change concerns. -/
def setChannel (s : StatementSession) (c : Channel) : StatementSession :=
  let before := s.channel
  let s := { s with channel := c }
  let s := if before.tellsCallers c && s.call.isSome then s.wake .caller else s
  if before.tellsHandler c then s.wake .handler else s

/-! ### What the outside does -/

/-- Feeds a payload to the handler; nothing happens once it is dropped. -/
def feed (s : StatementSession) (payload : List UInt8) : StatementSession :=
  if s.isAttached then
    let s := { s with queue := s.queue ++ [payload] }
    match s.intake with
    | .idle => s.wake .handler
    | _ => s
  else s

/-- Fails the statement from outside. -/
def abandon (s : StatementSession) (reason : ClientError) : StatementSession :=
  if s.isAttached then s.setChannel (s.channel.finish (some reason)) else s

/-- Drops the handler with the payloads it has not handled. -/
def dropHandler (s : StatementSession) : StatementSession :=
  if s.isAttached then
    { s.setChannel s.channel.letGo with
      queue := []
      intake := .idle
      isAttached := false }
  else s

/-- Starts a call on the response. -/
def start (s : StatementSession) (label : Nat) (pull : Pull) (bound : Option Duration) :
    StatementSession :=
  { s with
    call := some (label, PullCall.start s.now pull (bound.getD s.channel.bound))
    holder := if pull.consumes then .gone else .call }.wake .caller

/-- Takes the next row without waiting. -/
def next (s : StatementSession) : Except ClientError Row × StatementSession :=
  (s.channel.take.1, s.setChannel s.channel.take.2)

/-- Drops the response. -/
def dropResponse (s : StatementSession) : StatementSession :=
  { s.setChannel s.channel.drop with holder := .gone }

/-- Takes a step on the response, if its owner has it. -/
def perform (s : StatementSession) (label : Nat) (step : ResponseStep) :
    ResponseAnswer × StatementSession :=
  match s.holder with
  | .call => (.refused .busy, s)
  | .gone => (.refused .gone, s)
  | .nobody =>
    match step with
    | .pull pull bound => (.done, s.start label pull bound)
    | .take => (.row s.next.1, s.next.2)
    | .readId => (.id s.channel.id, s)
    | .describe => (.text s.channel.summary, s)
    | .drop => (.done, s.dropResponse)

/-- Cancels a call, which drops the response; `none` if it is not going on. -/
def cancel? (s : StatementSession) (label : Nat) : Option StatementSession :=
  match s.call with
  | some (running, _) =>
    if running = label then
      let s := s.setChannel s.channel.drop
      some { s with
        call := none
        ready := s.ready.erase .caller }
    else none
  | none => none

/-! ### What the two sides do -/

/-- The handler is done with a payload. -/
def handledOne (s : StatementSession) : StatementSession × Bool :=
  ({ s with intake := .idle, handled := s.handled + 1 }, true)

/-- Lets the handler go on; true if it can go on further. -/
def handlerTurn (s : StatementSession) : StatementSession × Bool :=
  match s.intake with
  | .idle =>
    match s.queue with
    | [] => (s, false)
    | payload :: queue => ({ s with queue := queue, intake := .decoding payload }, true)
  | .decoding payload =>
    match s.channel.receive payload with
    | (c, some row) => ({ s.setChannel c with intake := .storing row }, true)
    | (c, none) => (s.setChannel c).handledOne
  | .storing row =>
    match s.channel.store row with
    | (c, true) => (s.setChannel c).handledOne
    | (c, false) => (s.setChannel c, false)

/-- Ends the caller's call. The response goes back, or is dropped if the call took it over. -/
def finish (s : StatementSession) (label : Nat) (pull : Pull) (result : PullResult) :
    StatementSession :=
  let s := { s with call := none, finished := s.finished ++ [(label, result)] }
  if pull.consumes then s.setChannel s.channel.drop else { s with holder := .nobody }

/-- Lets the caller go on; true if it can go on further. -/
def callerTurn (s : StatementSession) : StatementSession × Bool :=
  match s.call with
  | none => (s, false)
  | some (label, call) =>
    let (progress, c) := call.turn s.now s.channel
    let s := s.setChannel c
    match progress with
    | .again call => ({ s with call := some (label, call) }, true)
    | .asleep => (s, false)
    | .finished result => (s.finish label call.pull result, false)

/-- Lets a side take its turn. A side that can go on further stays in front. -/
def turnOf (s : StatementSession) (side : StatementSide) : StatementSession :=
  let s := { s with ready := s.ready.erase side }
  let (s, goesOn) :=
    match side with
    | .handler => s.handlerTurn
    | .caller => s.callerTurn
  if goesOn then { s with ready := side :: s.ready.erase side } else s

/-- Lets time pass and wakes the caller if its wait is due. -/
def pass (s : StatementSession) (gap : Nat) : StatementSession :=
  let s := { s with now := s.now + gap }
  if s.call.any fun running => running.2.isDue s.now then s.wake .caller else s

instance : Schedule StatementSession where
  isBusy s := !s.ready.isEmpty
  turn s := s.ready.head?.elim s s.turnOf
  work s := 8 * (s.queue.length + s.channel.rows.length + 4)
  untilDeadline s := s.call.bind fun running => running.2.deadline.map (Clock.untilDue s.now)
  pass gap s := s.pass gap

end StatementSession

end BeeProtocol
