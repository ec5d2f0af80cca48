import BeeProtocol.Decimal.Shortest

/-!
# Values

A value is nil, a text, a 64-bit integer, a number, a boolean or a byte string. Its kind is a
`DataType`, which has a one-byte tag on the wire and a name in messages.
-/

namespace BeeProtocol

/-- The kinds of value. -/
inductive DataType
  | nil
  | string
  | integer
  | number
  | boolean
  | bytes
  deriving DecidableEq

namespace DataType

/-- The tag that stands in front of a value of this kind. -/
def tag : DataType → UInt8
  | nil => 0
  | string => 1
  | integer => 2
  | number => 3
  | boolean => 4
  | bytes => 5

/-- The kind with a tag. Tags from 6 on are unused. -/
def ofTag? (tag : UInt8) : Option DataType :=
  match tag with
  | 0 => some nil
  | 1 => some string
  | 2 => some integer
  | 3 => some number
  | 4 => some boolean
  | 5 => some bytes
  | _ => none

/-- The name of the kind in messages. -/
def name : DataType → String
  | nil => "Null"
  | string => "String"
  | integer => "Integer"
  | number => "Number"
  | boolean => "Boolean"
  | bytes => "Bytes"

/-- Reading a tag back gives the kind that has it. -/
@[simp] theorem ofTag?_tag (kind : DataType) : ofTag? kind.tag = some kind := by
  cases kind <;> rfl

end DataType

/-- A byte string held as a value. -/
structure Blob where
  /-- The bytes. -/
  data : List UInt8
  deriving DecidableEq

namespace Blob

/-- The empty byte string. -/
def empty : Blob := ⟨[]⟩

/-- The number of bytes. -/
def size (blob : Blob) : Nat := blob.data.length

/-- The short form in diagnostics, which tells the size only. -/
def summary (blob : Blob) : String := s!"Blob({blob.size} bytes)"

end Blob

/-- A value in a message. -/
inductive Value
  | nil
  | string (text : String)
  | integer (i : Int64)
  | number (number : Binary64)
  | boolean (b : Bool)
  | bytes (blob : Blob)
  deriving DecidableEq

namespace Value

/-- The kind of a value. -/
def dataType : Value → DataType
  | nil => .nil
  | string _ => .string
  | integer _ => .integer
  | number _ => .number
  | boolean _ => .boolean
  | bytes _ => .bytes

/-- Whether the value is nil. -/
def isNil (value : Value) : Bool := value.dataType == .nil

/-- The text of a text value. -/
def text? : Value → Option String
  | string text => some text
  | _ => none

/-- The integer of an integer value. -/
def integer? : Value → Option Int64
  | integer i => some i
  | _ => none

/-- The number of a numeric value; an integer widens to the nearest number. -/
def number? : Value → Option Binary64
  | number x => some x
  | integer i => some (Binary64.ofInt i.toInt)
  | _ => none

/-- The boolean of a boolean value. -/
def boolean? : Value → Option Bool
  | boolean b => some b
  | _ => none

/-- The byte string of a bytes value. -/
def blob? : Value → Option Blob
  | bytes blob => some blob
  | _ => none

/-- Equality of values as a program sees it: numbers compare numerically, so that a NaN differs from
itself. -/
def equals : Value → Value → Bool
  | number x, number y => x.equals y
  | a, b => a == b

/-- The text of a value: texts stand in quotes as they are, and a byte string shows its size. -/
def toText : Value → String
  | nil => "null"
  | string text => "\"" ++ text ++ "\""
  | integer i => toString i.toInt
  | number x => x.text
  | boolean b => if b then "true" else "false"
  | bytes blob => s!"<{blob.size} bytes>"

end Value

end BeeProtocol
