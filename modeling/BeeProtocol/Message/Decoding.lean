import BeeProtocol.Value.Encoding
import BeeProtocol.Message.Basic

/-!
# Messages read from a payload

A payload is read field by field; bytes after the last field are ignored. Which message a payload
holds is told by the type of its frame.
-/

namespace BeeProtocol

/-- A part of a message that is read like a value. -/
def part {α : Type} (parser : Parser ValueError α) : Parser ProtocolError α :=
  parser.mapError .value

/-- Reads a field that must be a text. -/
def readStringField (field : String) : Parser ProtocolError String := do
  match ← part Value.parser with
  | .string text => return text
  | value => Parser.fail (.violation (.expectedString field value.dataType))

/-- Reads a field that must be an unsigned 32-bit integer. -/
def readUInt32Field (field : String) : Parser ProtocolError UInt32 := do
  match ← part Value.parser with
  | .integer i =>
    if 0 ≤ i.toInt ∧ i.toInt < UInt32.size then return UInt32.ofNat i.toInt.toNat
    else Parser.fail (.violation (.outOfRange field i))
  | value => Parser.fail (.violation (.expectedInteger field value.dataType))

/-- Reads a code and a message. -/
def ServerError.parser : Parser ProtocolError ServerError := do
  let code ← part readInt32
  let message ← part readShortText
  return ⟨code, message⟩

/-- Reads a connect request. -/
def ConnectRequest.parser : Parser ProtocolError ConnectRequest := do
  let url ← readStringField "url"
  let application ← readStringField "application"
  return ⟨url, application⟩

/-- Reads a connect response. -/
def ConnectResponse.parser : Parser ProtocolError ConnectResponse := do
  let status ← part readByte
  match status with
  | 0 => return .accepted
  | 1 => return .rejected (← ServerError.parser)
  | status => Parser.fail (.violation (.invalidStatus status))

/-- Reads a statement request. -/
def StatementRequest.parser : Parser ProtocolError StatementRequest := do
  let id ← readUInt32Field "id"
  let script ← readStringField "script"
  let timeout ← readUInt32Field "timeout"
  return ⟨id, script, timeout⟩

/-- Reads a column. -/
def Column.parser : Parser ProtocolError Column := do
  let name ← part readShortText
  let dataType ← part readDataType
  return ⟨name, dataType⟩

/-- Reads an event: its state byte and what belongs to that state. -/
def StatementEvent.parser : Parser ProtocolError StatementEvent := do
  let state ← part readByte
  match state with
  | 0 => do
    let count ← part readByte
    return .columns (← Column.parser.replicate count.toNat)
  | 1 => do
    let count ← part readByte
    return .row (← (part Value.parser).replicate count.toNat)
  | 2 => return .abort
  | 3 => return .error (← ServerError.parser)
  | state => Parser.fail (.violation (.invalidState state))

/-- Reads a statement response. -/
def StatementResponse.parser : Parser ProtocolError StatementResponse := do
  let id ← part readUInt32
  let event ← StatementEvent.parser
  return ⟨id, event⟩

/-- The id at the front of a payload, if the payload is long enough to hold one. -/
def StatementResponse.peekId (payload : List UInt8) : Option UInt32 :=
  (Bytes.split? 4 payload).map fun front => UInt32.ofNat (Bytes.toNat front.1)

namespace Message

/-- Reads a message of a known kind. A ping has no fields that matter. -/
def parser : MessageKind → Parser ProtocolError Message
  | .connectRequest => connectRequest <$> ConnectRequest.parser
  | .connectResponse => connectResponse <$> ConnectResponse.parser
  | .statementRequest => statementRequest <$> StatementRequest.parser
  | .statementResponse => statementResponse <$> StatementResponse.parser
  | .ping => return ping

/-- The message of a known kind that a payload holds. -/
def decode (kind : MessageKind) (payload : List UInt8) : Except ProtocolError Message :=
  (parser kind).parse payload

end Message

end BeeProtocol
