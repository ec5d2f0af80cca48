import BeeProtocol.Value.Encoding

/-!
# Reading and writing step by step

A `Cursor` reads items one after another from a payload; a read that fails leaves it where it was.
An `Encoder` appends values to a buffer; a value that cannot be written leaves the buffer as it was.
-/

namespace BeeProtocol

/-- A place in a payload. -/
structure Cursor where
  /-- The bytes to be read. -/
  payload : List UInt8
  /-- How many of them were read. -/
  position : Nat
  /-- The place is within the payload. -/
  position_le : position ≤ payload.length

namespace Cursor

/-- The start of a payload. -/
def ofList (payload : List UInt8) : Cursor := ⟨payload, 0, Nat.zero_le _⟩

/-- How many bytes are left. -/
def remaining (cursor : Cursor) : Nat := cursor.payload.length - cursor.position

/-- The bytes that are left. -/
def rest (cursor : Cursor) : List UInt8 := cursor.payload.drop cursor.position

/-- Reads one item. The cursor moves past it, or stays if the item cannot be read. -/
def read {α : Type} (parser : Parser ValueError α) (cursor : Cursor) :
    Except ValueError α × Cursor :=
  match parser cursor.rest with
  | .ok (item, rest) =>
    (.ok item, ⟨cursor.payload, cursor.payload.length - rest.length, Nat.sub_le _ _⟩)
  | .error reason => (.error reason, cursor)

end Cursor

/-- A buffer that values are appended to. -/
structure Encoder where
  /-- What was written so far. -/
  buffer : List UInt8

namespace Encoder

/-- The number of bytes written. -/
def size (encoder : Encoder) : Nat := encoder.buffer.length

/-- Appends a value, or nothing if it cannot be written. -/
def push (encoder : Encoder) (value : Value) : Except ValueError Unit × Encoder :=
  match value.encode with
  | .ok bytes => (.ok (), ⟨encoder.buffer ++ bytes⟩)
  | .error reason => (.error reason, encoder)

end Encoder

end BeeProtocol
