import BeeProtocol.Decimal.Binary64

/-!
# Shortest decimal text of a number

A finite number prints as the decimal with the fewest digits among those that read back as it, the
nearest of them if there are several, and the larger of two equally near. Digits are always
positional, and an integral number has no point.
-/

namespace BeeProtocol.Shortest

/-- A positive number and the interval of reals that round to it, as numerators over a common
denominator. -/
structure Interval where
  /-- The number itself. -/
  value : Nat
  /-- The lower end. -/
  lower : Nat
  /-- The upper end. -/
  upper : Nat
  /-- What all three are divided by. -/
  denominator : Nat
  /-- Whether the ends round to the number as well. -/
  closed : Bool

/-- The interval of a positive finite number. Below a power of two the neighbours are half as far
apart, except at the least normal number. -/
def Interval.of (number : Binary64) : Interval :=
  let significand := number.significand
  let scale := max number.exponent 1
  let below := if number.fraction = 0 ∧ 1 < number.exponent then 1 else 2
  let up := 1 <<< (scale - 1077)
  { value := 4 * significand * up
    lower := (4 * significand - below) * up
    upper := (4 * significand + 2) * up
    denominator := 1 <<< (1077 - scale)
    closed := significand % 2 = 0 }

/-- Whether the fraction lies in the interval. -/
def Interval.contains (range : Interval) (numerator denominator : Nat) : Bool :=
  let point := numerator * range.denominator
  if range.closed then
    range.lower * denominator ≤ point && point ≤ range.upper * denominator
  else
    range.lower * denominator < point && point < range.upper * denominator

/-- The number of decimal digits of `n`, counted with fuel. -/
def digitCount : Nat → Nat → Nat
  | 0, _ => 0
  | fuel + 1, n => if n = 0 then 0 else digitCount fuel (n / 10) + 1

/-- How many zeros follow the point before the first digit of the fraction `value / denominator`
below 1. -/
def leadingZeros : Nat → Nat → Nat → Nat
  | 0, _, _ => 0
  | fuel + 1, value, denominator =>
    if denominator ≤ 10 * value then 0 else leadingZeros fuel (10 * value) denominator + 1

/-- A decimal: `coefficient * 10 ^ exponent`. -/
structure Decimal where
  /-- The digits, as one number. -/
  coefficient : Nat
  /-- The power of ten that they are multiplied by. -/
  exponent : Int

/-- The value of the decimal as a numerator and a denominator. -/
def Decimal.ratio (decimal : Decimal) : Nat × Nat :=
  (decimal.coefficient * Nat.pow 10 decimal.exponent.toNat, Nat.pow 10 (-decimal.exponent).toNat)

/-- The decimal of the grid `10 ^ exponent` that reads back as the number, if there is one: of the
two neighbours of the value the nearer, and the upper one if they are equally near. -/
def onGrid (range : Interval) (exponent : Int) : Option Decimal :=
  let up := Nat.pow 10 exponent.toNat
  let down := Nat.pow 10 (-exponent).toNat
  let floor := range.value * down / (range.denominator * up)
  let below : Decimal := ⟨floor, exponent⟩
  let above : Decimal := ⟨floor + 1, exponent⟩
  let rest := range.value * down % (range.denominator * up)
  let fits := fun decimal : Decimal => range.contains decimal.ratio.1 decimal.ratio.2
  let lowerIsNearer := 2 * rest < range.denominator * up
  match fits below && 0 < floor, fits above with
  | true, true => some (if lowerIsNearer then below else above)
  | true, false => some below
  | false, true => some above
  | false, false => none

/-- The first decimal that reads back, on grids of one digit and more. -/
def search (range : Interval) (magnitude : Int) : Nat → Nat → Decimal
  | 0, _ => ⟨0, 0⟩
  | fuel + 1, digits =>
    (onGrid range (magnitude - digits)).getD (search range magnitude fuel (digits + 1))

/-- The shortest decimal of a positive finite number. Seventeen digits always suffice. -/
def decimal (number : Binary64) : Decimal :=
  let range := Interval.of number
  let whole := range.value / range.denominator
  let magnitude : Int :=
    if whole = 0 then -(leadingZeros 400 range.value range.denominator : Nat)
    else digitCount 400 whole
  search range magnitude 18 1

/-- Drops the zeros at the end of a list of digits. -/
def trimZeros (digits : List Char) : List Char :=
  (digits.reverse.dropWhile (· == '0')).reverse

/-- Positional text of a positive decimal. -/
def Decimal.text (decimal : Decimal) : String :=
  let digits := (toString decimal.coefficient).toList
  let point := digits.length + decimal.exponent
  let digits := trimZeros digits
  if point ≤ 0 then
    "0." ++ String.ofList (List.replicate (-point).toNat '0' ++ digits)
  else
    let places := point.toNat
    if digits.length ≤ places then
      String.ofList (digits ++ List.replicate (places - digits.length) '0')
    else
      String.ofList (digits.take places ++ '.' :: digits.drop places)

end BeeProtocol.Shortest

namespace BeeProtocol

/-- The text of a number: `NaN` without a sign, infinities as `inf`, and zero as a bare digit. -/
def Binary64.text (number : Binary64) : String :=
  if number.isNaN then "NaN"
  else
    let magnitude :=
      if number.isInfinite then "inf"
      else if number.isZero then "0"
      else (Shortest.decimal number).text
    if number.isNegative then "-" ++ magnitude else magnitude

end BeeProtocol
