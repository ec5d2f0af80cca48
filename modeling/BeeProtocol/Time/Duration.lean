/-!
# Durations

A span of time in nanoseconds, below `2 ^ 64` seconds. Its text uses the largest unit that leaves a
nonzero integer part and then the exact fraction.
-/

namespace BeeProtocol

/-- The number of nanoseconds in a second. -/
abbrev Duration.perSecond : Nat := 1000000000

/-- The first number of nanoseconds that is too large for a span. -/
abbrev Duration.limit : Nat := UInt64.size * perSecond

/-- A span of time in whole nanoseconds. -/
structure Duration where
  /-- The nanoseconds. -/
  nanos : Nat
  /-- There is a longest span of time. -/
  nanos_lt : nanos < Duration.limit
  deriving DecidableEq

namespace Duration

/-- The span of that many nanoseconds, if it is below the limit. -/
def ofNanos? (nanos : Nat) : Option Duration :=
  if h : nanos < limit then some ⟨nanos, h⟩ else none

/-- The longest span. -/
def max : Duration := ⟨limit - 1, by decide⟩

/-- The empty span. -/
def zero : Duration := ⟨0, by decide⟩

/-- A span of whole seconds. -/
def ofSeconds (seconds : UInt64) : Duration :=
  ⟨seconds.toNat * perSecond, by
    have := seconds.toNat_lt
    simp only [limit, perSecond, UInt64.size]
    omega⟩

/-- The sum, if it is below the limit. -/
def add? (a b : Duration) : Option Duration := ofNanos? (a.nanos + b.nanos)

/-- The whole seconds. -/
def seconds (span : Duration) : Nat := span.nanos / perSecond

/-- A number of nanoseconds in a unit that is a power of ten: the whole part, and the fraction
without its trailing zeros. -/
def decimalText (nanos unit : Nat) : String :=
  let whole := toString (nanos / unit)
  let digits := (toString (unit + nanos % unit)).toList.drop 1
  let digits := (digits.reverse.dropWhile (· == '0')).reverse
  if digits.isEmpty then whole else whole ++ "." ++ String.ofList digits

/-- The text of a span, such as `10ms`, `1.5s` or `0ns`. -/
def text (span : Duration) : String :=
  let n := span.nanos
  if perSecond ≤ n then decimalText n perSecond ++ "s"
  else if 1000000 ≤ n then decimalText n 1000000 ++ "ms"
  else if 1000 ≤ n then decimalText n 1000 ++ "µs"
  else toString n ++ "ns"

end Duration

end BeeProtocol
