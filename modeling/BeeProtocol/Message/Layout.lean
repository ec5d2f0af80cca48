import BeeProtocol.Value.Encoding
import BeeProtocol.Message.Basic

/-!
# Messages as bytes to write

A message is laid out as its fields in wire order. A field that does not fit its length or count is
refused, and then nothing of it or after it is written: a length is never cut to fit.
-/

namespace BeeProtocol

/-- Fields in wire order, each its bytes or the reason why it cannot be written. -/
abbrev Layout := List (Except ProtocolError (List UInt8))

namespace Layout

/-- The bytes of the fields before the first refused one. -/
def written : Layout → List UInt8
  | .ok bytes :: fields => bytes ++ written fields
  | _ => []

/-- The reason of the first refused field. -/
def refusal? : Layout → Option ProtocolError
  | [] => none
  | .ok _ :: fields => refusal? fields
  | .error reason :: _ => some reason

end Layout

/-- A value as a field. -/
def valueField (value : Value) : Except ProtocolError (List UInt8) :=
  match value.encode with
  | .ok bytes => .ok bytes
  | .error reason => .error (.value reason)

/-- A count below 256 as a field. -/
def countField (items : String) (count : Nat) : Except ProtocolError (List UInt8) :=
  if count < 256 then .ok [UInt8.ofNat count] else .error (.violation (.tooMany items count))

/-- A text of at most 255 bytes behind its length, as one field. -/
def shortTextField (field text : String) : Except ProtocolError (List UInt8) :=
  let bytes := Utf8.encode text
  let size := bytes.length
  if size < 256 then .ok (UInt8.ofNat size :: bytes) else .error (.violation (.tooLong field))

/-- The fields of a server error. -/
def ServerError.layout (error : ServerError) : Layout :=
  [.ok (Bytes.ofNat 4 error.code.toUInt32.toNat), shortTextField "error message" error.message]

/-- The fields of a column. -/
def Column.layout (column : Column) : Layout :=
  [shortTextField "column name" column.name, .ok [column.dataType.tag]]

/-- The fields of an event after its state byte. -/
def StatementEvent.layout : StatementEvent → Layout
  | .columns header => countField "columns" header.length :: header.flatMap Column.layout
  | .row values => countField "row values" values.length :: values.map valueField
  | .abort => []
  | .error reason => reason.layout

namespace Message

/-- The fields of a message. -/
def layout : Message → Layout
  | connectRequest request =>
    [valueField (.string request.url), valueField (.string request.application)]
  | connectResponse .accepted => [.ok [0]]
  | connectResponse (.rejected error) => .ok [1] :: error.layout
  | statementRequest request =>
    [valueField (.integer request.id.toUInt64.toInt64), valueField (.string request.script),
      valueField (.integer request.timeout.toUInt64.toInt64)]
  | statementResponse response =>
    .ok (Bytes.ofNat 4 response.id.toNat) :: .ok [response.event.state] :: response.event.layout
  | ping => [.ok [0]]

/-- The payload of a message, or why it has none. -/
def encode (message : Message) : Except ProtocolError (List UInt8) :=
  match message.layout.refusal? with
  | none => .ok message.layout.written
  | some reason => .error reason

/-- Appends a message to a buffer. The buffer also gets what stands before a refused field. -/
def appendTo (message : Message) (buffer : List UInt8) :
    Except ProtocolError Unit × List UInt8 :=
  (match message.layout.refusal? with
    | none => .ok ()
    | some reason => .error reason,
    buffer ++ message.layout.written)

end Message

end BeeProtocol
