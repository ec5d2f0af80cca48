import BeeProtocol.Value.Basic

/-!
# Why a value cannot be read or written
-/

namespace BeeProtocol

/-- A reason why a value cannot be read or written. -/
inductive ValueError
  /-- The bytes end inside the value. -/
  | unexpectedEnd
  /-- No kind of value has this tag. -/
  | unknownType (tag : UInt8)
  /-- The text is not UTF-8, for the reason given. -/
  | invalidText (reason : String)
  /-- A text or byte string of this size does not fit its length field. -/
  | tooLarge (kind : DataType) (size : Nat)
  deriving DecidableEq

/-- Two upper-case hexadecimal digits. -/
def hexByte (byte : UInt8) : String :=
  let digit := fun n : Nat => Char.ofNat (if n < 10 then 48 + n else 55 + n)
  String.ofList [digit (byte.toNat / 16), digit (byte.toNat % 16)]

/-- The wording of a value error. -/
def ValueError.message : ValueError → String
  | unexpectedEnd => "Unexpected end of value data"
  | unknownType tag => "Unknown value type tag: 0x" ++ hexByte tag
  | invalidText reason => "Invalid UTF-8 in string: " ++ reason
  | tooLarge kind size => s!"{kind.name} too large: {size} bytes"

end BeeProtocol
