import BeeProtocol.Statement.Channel
import BeeProtocol.Time.Clock

/-!
# Calls on a response

A caller pulls the header or rows out of a response. Each call waits until what it asks for is
decided, at most for its bound; the calls that take several rows start a new wait for each of them.
A wait first looks at the channel and then at its deadline.
-/

namespace BeeProtocol

/-- What a call asks for, with the rows that it has taken so far. -/
inductive Pull
  | columns
  | hasNext
  | nextRow
  | collect (taken : List Row)
  | stream (taken : List Row)

/-- What a call on a response ends with. -/
inductive PullResult
  | columns (header : List Column)
  | hasNext (available : Bool)
  | nextRow (row : Option Row)
  | collected (rows : List Row)
  /-- The rows of a stream and the error after them, if it ended with one. -/
  | streamed (rows : List Row) (failure : Option ClientError)
  | failed (reason : ClientError)

/-- Whether the call takes the response over for good. -/
def Pull.consumes : Pull → Bool
  | collect _ | stream _ => true
  | _ => false

/-- A call on a response and its current wait. -/
structure PullCall where
  /-- What the caller asks for. -/
  pull : Pull
  /-- How long each wait may take. -/
  bound : Duration
  /-- The nanosecond at which the current wait is over, if it ever is. -/
  deadline : Option Nat

/-- How a call stands after its turn. -/
inductive PullProgress
  /-- It goes on with the next wait. -/
  | again (call : PullCall)
  /-- It waits. -/
  | asleep
  /-- It has ended. -/
  | finished (result : PullResult)

namespace PullCall

/-- Starts a call at the time `now`. A bound that is too long for a deadline never ends the wait. -/
def start (now : Nat) (pull : Pull) (bound : Duration) : PullCall :=
  ⟨pull, bound, Clock.after? now bound⟩

/-- Whether the wait has passed its deadline. -/
def isDue (call : PullCall) (now : Nat) : Bool := call.deadline.any (Clock.isDue now)

/-- The failure of a wait that passed its deadline. -/
def timeout (call : PullCall) (c : Channel) (what : String) : ClientError :=
  .timeout s!"statement {c.id.toNat}: no {what} within {call.bound.text}"

/-- What is known about the next row at the time `now`: a passed deadline is a failure. -/
def rowKnown? (call : PullCall) (now : Nat) (c : Channel) : Option (Except ClientError Bool) :=
  match c.rowReady? with
  | some known => some known
  | none => if call.isDue now then some (.error (call.timeout c "row")) else none

/-- What is known about the header at the time `now`: a passed deadline is a failure. -/
def headerKnown? (call : PullCall) (now : Nat) (c : Channel) :
    Option (Except ClientError (List Column)) :=
  match c.headerReady? with
  | some known => some known
  | none => if call.isDue now then some (.error (call.timeout c "column header")) else none

/-- The end of a call that fails after it has taken rows. -/
def fail (call : PullCall) (reason : ClientError) : PullProgress :=
  match call.pull with
  | .stream taken => .finished (.streamed taken (some reason))
  | _ => .finished (.failed reason)

/-- The end of a call when no row is left. -/
def exhausted (call : PullCall) : PullProgress :=
  match call.pull with
  | .stream taken => .finished (.streamed taken none)
  | .collect taken => .finished (.collected taken)
  | .nextRow => .finished (.nextRow none)
  | _ => .finished (.hasNext false)

/-- The call after it has taken a row. -/
def took (call : PullCall) (now : Nat) (row : Row) : PullProgress :=
  match call.pull with
  | .stream taken => .again (start now (.stream (taken ++ [row])) call.bound)
  | .collect taken => .again (start now (.collect (taken ++ [row])) call.bound)
  | _ => .finished (.nextRow (some row))

/-- Takes the row that is known to be there. -/
def takeRow (call : PullCall) (now : Nat) (c : Channel) : PullProgress × Channel :=
  match c.take with
  | (.ok row, c) => (call.took now row, c)
  | (.error reason, c) => (call.fail reason, c)

/-- Lets a call take its turn at the time `now`. -/
def turn (call : PullCall) (now : Nat) (c : Channel) : PullProgress × Channel :=
  match call.pull with
  | .columns =>
    match call.headerKnown? now c with
    | none => (.asleep, c)
    | some (.ok header) => (.finished (.columns header), c)
    | some (.error reason) => (.finished (.failed reason), c)
  | .hasNext =>
    match call.rowKnown? now c with
    | none => (.asleep, c)
    | some (.ok available) => (.finished (.hasNext available), c)
    | some (.error reason) => (.finished (.failed reason), c)
  | _ =>
    match call.rowKnown? now c with
    | none => (.asleep, c)
    | some (.ok true) => call.takeRow now c
    | some (.ok false) => (call.exhausted, c)
    | some (.error reason) => (call.fail reason, c)

end PullCall

end BeeProtocol
