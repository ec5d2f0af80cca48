import BeeProtocol.Value.Basic

/-!
# Reading a byte string by position

A reader has a 64-bit position, which may lie past the end. A seek that would leave the range of
positions fails and does not move it.
-/

namespace BeeProtocol

/-- A reader of a byte string. -/
structure BlobReader where
  /-- The bytes to be read. -/
  blob : Blob
  /-- How many of them were read. -/
  position : Nat

/-- Where a seek is counted from. -/
inductive Seek
  | fromStart (position : UInt64)
  | fromEnd (offset : Int64)
  | fromHere (offset : Int64)

/-- Why a reader cannot do what is asked. -/
inductive BlobReader.Failure
  /-- The position would be negative or above the largest 64-bit number. -/
  | badSeek
  /-- Fewer bytes are left than have to be read. -/
  | tooShort

/-- The wording of a reader's failure. -/
def BlobReader.Failure.message : BlobReader.Failure → String
  | badSeek => "invalid seek to a negative or overflowing position"
  | tooShort => "failed to fill whole buffer"

/-- A reader at the start of a byte string. -/
def Blob.reader (blob : Blob) : BlobReader := ⟨blob, 0⟩

namespace BlobReader

/-- The bytes that are left. -/
def rest (reader : BlobReader) : List UInt8 := reader.blob.data.drop reader.position

/-- Moves the position by an offset from a base. -/
def moveTo (reader : BlobReader) (target : Int) : Except Failure Nat × BlobReader :=
  if 0 ≤ target ∧ target < UInt64.size then
    (.ok target.toNat, { reader with position := target.toNat })
  else (.error .badSeek, reader)

/-- Moves the position and answers the new one. -/
def seek (reader : BlobReader) : Seek → Except Failure Nat × BlobReader
  | .fromStart position => reader.moveTo position.toNat
  | .fromEnd offset => reader.moveTo (reader.blob.size + offset.toInt)
  | .fromHere offset => reader.moveTo (reader.position + offset.toInt)

/-- Reads up to `count` bytes. -/
def read (reader : BlobReader) (count : Nat) : List UInt8 × BlobReader :=
  let bytes := reader.rest.take count
  (bytes, { reader with position := reader.position + bytes.length })

/-- Reads all bytes that are left. -/
def readRest (reader : BlobReader) : List UInt8 × BlobReader :=
  let bytes := reader.rest
  (bytes, { reader with position := reader.position + bytes.length })

/-- Reads exactly `count` bytes; if fewer are left it moves to the end of the byte string. -/
def readExactly (reader : BlobReader) (count : Nat) :
    Except Failure (List UInt8) × BlobReader :=
  if count ≤ reader.rest.length then
    (.ok (reader.rest.take count), { reader with position := reader.position + count })
  else (.error .tooShort, { reader with position := reader.blob.size })

end BlobReader

end BeeProtocol
