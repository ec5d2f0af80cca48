/-!
# Binary floating-point numbers as bit patterns

A number is its 64 bits: sign, eleven bits of exponent, fifty-two of fraction. It is kept bit for
bit, so that every NaN survives. Comparison is numeric, and an integer becomes the nearest number, a
tie going to the even fraction.
-/

namespace BeeProtocol

/-- A double-precision number, kept as its bits. -/
structure Binary64 where
  /-- The sign, the exponent and the fraction. -/
  bits : UInt64
  deriving DecidableEq

namespace Binary64

/-- The sign bit, in its place. -/
abbrev signBit : Nat := 0x8000000000000000

/-- The bit in front of the fraction, which a normal number has without storing it. -/
abbrev hiddenBit : Nat := 0x10000000000000

/-- Whether the sign bit is set. -/
def isNegative (number : Binary64) : Bool := signBit ≤ number.bits.toNat

/-- The eleven exponent bits. -/
def exponent (number : Binary64) : Nat := number.bits.toNat / hiddenBit % 2048

/-- The fifty-two fraction bits. -/
def fraction (number : Binary64) : Nat := number.bits.toNat % hiddenBit

/-- The digits of a finite number as an integer, without sign and scale. -/
def significand (number : Binary64) : Nat :=
  if number.exponent = 0 then number.fraction else hiddenBit + number.fraction

/-- Neither a number nor an infinity. -/
def isNaN (number : Binary64) : Bool := number.exponent == 2047 && number.fraction != 0

/-- Either infinity. -/
def isInfinite (number : Binary64) : Bool := number.exponent == 2047 && number.fraction == 0

/-- Either zero. -/
def isZero (number : Binary64) : Bool := number.exponent == 0 && number.fraction == 0

/-- Numeric equality: a NaN equals nothing, and the two zeros are equal. -/
def equals (a b : Binary64) : Bool :=
  !a.isNaN && !b.isNaN && (a.bits == b.bits || a.isZero && b.isZero)

/-- Divides by `2 ^ places` and rounds to the nearest, a tie to the even quotient. -/
def roundShift (n places : Nat) : Nat :=
  let unit := 1 <<< places
  let quotient := n / unit
  let twice := 2 * (n % unit)
  if unit < twice || unit == twice && quotient % 2 == 1 then quotient + 1 else quotient

/-- The number nearest to an integer of at most 64 bits. Rounding up to the next power of two
carries into the exponent by itself. -/
def ofInt (i : Int) : Binary64 :=
  let n := i.natAbs
  if n = 0 then ⟨0⟩
  else
    let e := n.log2
    let significand := if e ≤ 52 then n <<< (52 - e) else roundShift n (e - 52)
    let magnitude := (e + 1023) * hiddenBit + (significand - hiddenBit)
    ⟨UInt64.ofNat (if i < 0 then signBit + magnitude else magnitude)⟩

end Binary64

end BeeProtocol
