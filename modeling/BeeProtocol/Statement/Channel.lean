import BeeProtocol.Config
import BeeProtocol.Message.Decoding
import BeeProtocol.Row

/-!
# Statement channels

A channel carries the answer to one statement from the handler, which decodes the payloads, to the
response, from which the caller takes rows. Rows wait in a buffer of fixed capacity. A row that fits
the header is stored only after it has got one of the buffer's slots, and taking a row frees a slot,
so that rows are never lost for want of space. The first end of the statement is final.
-/

namespace BeeProtocol

/-- How far the answer to a statement has come. -/
inductive StatementPhase
  | awaitingHeader
  | receivingRows
  | done
  deriving DecidableEq

/-- The name of a phase in diagnostics. -/
def StatementPhase.name : StatementPhase → String
  | awaitingHeader => "AwaitingHeader"
  | receivingRows => "ReceivingRows"
  | done => "Done"

/-- Where the handler stands in its wait for a slot. -/
inductive SlotWait
  /-- It does not wait. -/
  | none
  /-- It waits for a slot to become free. -/
  | waiting
  /-- A slot was given to it that it has not used yet. -/
  | granted
  deriving DecidableEq

/-- The state that the handler and the response of a statement share. -/
structure Channel where
  /-- The id of the statement. -/
  id : UInt32
  /-- The bound for waits that have none of their own. -/
  bound : Duration
  /-- How far the statement has come. -/
  phase : StatementPhase
  /-- The columns, once they have come. -/
  header : Option (List Column)
  /-- The buffered rows, oldest first. -/
  rows : List Row
  /-- Why the statement has failed. -/
  failure : Option ClientError
  /-- The slots that are neither taken by a buffered row nor given to the handler. -/
  free : Nat
  /-- Whether the handler waits for a slot for its row, or has one. -/
  slot : SlotWait
  /-- Whether the response was dropped. -/
  isDropped : Bool

namespace Channel

/-- A channel without a header, with a capacity of at least one row. -/
def fresh (id : UInt32) (capacity : Nat) (bound : Duration) : Channel where
  id := id
  bound := bound
  phase := .awaitingHeader
  header := none
  rows := []
  failure := none
  free := Config.clampRows capacity
  slot := .none
  isDropped := false

/-- Whether the statement has ended. -/
def isDone (c : Channel) : Bool := c.phase == .done

/-- The diagnostic text of the response. -/
def summary (c : Channel) : String :=
  "StreamingResponse \x7b id: " ++ toString c.id.toNat ++ ", phase: " ++ c.phase.name
    ++ ", buffered: " ++ toString c.rows.length ++ " \x7d"

/-- Whether a payload belongs to the statement: it starts with its id. -/
def isCandidate (c : Channel) (payload : List UInt8) : Bool :=
  StatementResponse.peekId payload == some c.id

/-! ### The handler's side -/

/-- Ends the statement, with a failure or without one. Only the first end counts. -/
def finish (c : Channel) (failure : Option ClientError) : Channel :=
  if c.isDone then c
  else { c with phase := .done, failure := c.failure.or failure }

/-- Takes the header, unless one was taken before. -/
def takeHeader (c : Channel) (header : List Column) : Channel :=
  if c.phase = .awaitingHeader then { c with header := some header, phase := .receivingRows }
  else c

/-- The row that the values make, if the statement goes on and has a header that they fit. -/
def fitRow? (c : Channel) (values : List Value) : Option Row :=
  if c.isDone then none
  else
    match c.header with
    | some header => if header.length = values.length then some ⟨header, values⟩ else none
    | none => none

/-- Applies an event; a row that fits is left to be stored. -/
def apply (c : Channel) : StatementEvent → Channel × Option Row
  | .columns header => (c.takeHeader header, none)
  | .row values => (c, c.fitRow? values)
  | .abort => (c.finish none, none)
  | .error reason => (c.finish (some (.application reason)), none)

/-- Decodes a payload and applies its event. A malformed payload ends the statement. -/
def receive (c : Channel) (payload : List UInt8) : Channel × Option Row :=
  match Message.decode .statementResponse payload with
  | .ok (.statementResponse response) => c.apply response.event
  | .ok _ => (c, none)
  | .error reason => (c.finish (some (.decode reason.message)), none)

/-- Buffers a row. -/
def push (c : Channel) (row : Row) : Channel := { c with rows := c.rows ++ [row] }

/-- Tries to store a row: it is buffered once it has a slot, and discarded once the response is
dropped. Answers whether the row is dealt with; otherwise the handler waits. -/
def store (c : Channel) (row : Row) : Channel × Bool :=
  match c.isDropped, c.slot with
  | true, .granted => ({ c with slot := .none, free := c.free + 1 }, true)
  | true, _ => ({ c with slot := .none }, true)
  | false, .granted => ({ c with slot := .none }.push row, true)
  | false, .waiting => (c, false)
  | false, .none =>
    if c.free = 0 then ({ c with slot := .waiting }, false)
    else ({ c with free := c.free - 1 }.push row, true)

/-- Cuts off the decoding of a payload; a slot that was given and not used is free again. -/
def cutOff (c : Channel) : Channel :=
  match c.slot with
  | .granted => { c with slot := .none, free := c.free + 1 }
  | _ => { c with slot := .none }

/-- The handler is let go of while it may be decoding. -/
def letGo (c : Channel) : Channel := c.cutOff.finish (some .connectionClosed)

/-! ### The response's side -/

/-- Frees a slot, which goes to the handler if it waits for one. -/
def release (c : Channel) : Channel :=
  if c.slot = .waiting then { c with slot := .granted } else { c with free := c.free + 1 }

/-- Takes the oldest buffered row without waiting. A failure comes before buffered rows. -/
def take (c : Channel) : Except ClientError Row × Channel :=
  match c.failure, c.rows with
  | some reason, _ => (.error reason, c)
  | none, [] => (.error .emptyResult, c)
  | none, row :: rows => (.ok row, { c with rows := rows }.release)

/-- Drops the response. -/
def drop (c : Channel) : Channel := { c with isDropped := true }

/-- The header as far as it is decided. -/
def headerReady? (c : Channel) : Option (Except ClientError (List Column)) :=
  match c.failure, c.header with
  | some reason, _ => some (.error reason)
  | none, some header => some (.ok header)
  | none, none =>
    if c.isDone then some (.error (.decode "statement ended without a column header")) else none

/-- Whether there is another row, as far as it is decided. -/
def rowReady? (c : Channel) : Option (Except ClientError Bool) :=
  match c.failure, c.rows with
  | some reason, _ => some (.error reason)
  | none, _ :: _ => some (.ok true)
  | none, [] => if c.isDone then some (.ok false) else none

/-! ### Who is woken by a change -/

/-- Whether a change is one that waiting callers are told of: a new phase or a new row. -/
def tellsCallers (before after : Channel) : Bool :=
  before.phase != after.phase || before.rows.length < after.rows.length

/-- Whether a change ends the handler's wait for a slot. -/
def tellsHandler (before after : Channel) : Bool :=
  before.slot == .waiting
    && (after.slot == .granted || after.isDropped && !before.isDropped)

end Channel

end BeeProtocol
