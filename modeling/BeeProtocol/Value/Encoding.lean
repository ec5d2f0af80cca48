import BeeProtocol.Bytes
import BeeProtocol.Parser
import BeeProtocol.Text.Utf8
import BeeProtocol.Value.Error

/-!
# Values as bytes

A value is its tag and then a body: nothing for nil, eight bytes for an integer or a number, one for
a boolean, and a four-byte length with that many bytes for a text or a byte string. `Value.encode`
writes this form and `Value.parser` reads it. The only spelling that is read and never written is a
false boolean whose body byte is neither 0 nor 1.
-/

namespace BeeProtocol

/-- Reads `count` bytes. -/
def readBytes (count : Nat) : Parser ValueError (List UInt8) := fun bytes =>
  match Bytes.split? count bytes with
  | some result => .ok result
  | none => .error .unexpectedEnd

/-- Reads a number of `width` bytes. -/
def readNat (width : Nat) : Parser ValueError Nat :=
  Bytes.toNat <$> readBytes width

/-- Reads one byte. -/
def readByte : Parser ValueError UInt8 := UInt8.ofNat <$> readNat 1

/-- Reads an unsigned number of four bytes. -/
def readUInt32 : Parser ValueError UInt32 := UInt32.ofNat <$> readNat 4

/-- Reads a signed number of four bytes. -/
def readInt32 : Parser ValueError Int32 := (fun n => (UInt32.ofNat n).toInt32) <$> readNat 4

/-- Reads a signed number of eight bytes. -/
def readInt64 : Parser ValueError Int64 := (fun n => (UInt64.ofNat n).toInt64) <$> readNat 8

/-- Reads the eight bytes of a number as they are. -/
def readBinary64 : Parser ValueError Binary64 := (fun n => ⟨UInt64.ofNat n⟩) <$> readNat 8

/-- Reads a text of `count` bytes. The bytes are taken before they are checked, so a text cut short
is reported as cut short. -/
def readText (count : Nat) : Parser ValueError String := do
  let bytes ← readBytes count
  match Utf8.decode bytes with
  | .ok text => return text
  | .error fault => Parser.fail (.invalidText fault.message)

/-- Reads a text behind a one-byte length. -/
def readShortText : Parser ValueError String := do
  let count ← readByte
  readText count.toNat

/-- Reads the kind of the value that follows. -/
def readDataType : Parser ValueError DataType := do
  let tag ← readByte
  match DataType.ofTag? tag with
  | some kind => return kind
  | none => Parser.fail (.unknownType tag)

namespace Value

/-- Reads the body of a value of a known kind. -/
def bodyParser : DataType → Parser ValueError Value
  | .nil => return .nil
  | .string => do
    let count ← readNat 4
    return .string (← readText count)
  | .integer => return .integer (← readInt64)
  | .number => return .number (← readBinary64)
  | .boolean => return .boolean ((← readByte) == 1)
  | .bytes => do
    let count ← readNat 4
    return .bytes ⟨← readBytes count⟩

/-- Reads one value. -/
def parser : Parser ValueError Value := do
  let kind ← readDataType
  bodyParser kind

/-- The value at the front of the bytes; what follows it is ignored. -/
def decode (bytes : List UInt8) : Except ValueError Value := parser.parse bytes

/-- Bytes behind a four-byte length, which fits below `2 ^ 32`. -/
def counted (kind : DataType) (bytes : List UInt8) : Except ValueError (List UInt8) :=
  let size := bytes.length
  if size < UInt32.size then .ok (Bytes.ofNat 4 size ++ bytes) else .error (.tooLarge kind size)

/-- The body of a value, without its tag. -/
def encodeBody : Value → Except ValueError (List UInt8)
  | nil => .ok []
  | string text => counted .string (Utf8.encode text)
  | integer i => .ok (Bytes.ofNat 8 i.toUInt64.toNat)
  | number x => .ok (Bytes.ofNat 8 x.bits.toNat)
  | boolean b => .ok [if b then 1 else 0]
  | bytes blob => counted .bytes blob.data

/-- The bytes of a value. -/
def encode (value : Value) : Except ValueError (List UInt8) :=
  (encodeBody value).map (value.dataType.tag :: ·)

end Value

end BeeProtocol
