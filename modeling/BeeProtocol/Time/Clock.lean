import BeeProtocol.Time.Duration

/-!
# The clock

The clock shows whole milliseconds. A deadline is an instant in nanoseconds and is due as soon as
the clock has reached it, so in effect it is rounded up to the next millisecond.
-/

namespace BeeProtocol.Clock

/-- The nanoseconds of a millisecond. -/
abbrev tick : Nat := 1000000

/-- The first instant that no deadline can name: `2 ^ 63` seconds. -/
abbrev horizon : Nat := UInt64.size / 2 * Duration.perSecond

/-- Thirty years, which stand for a bound that reaches past the horizon where a deadline is needed.
-/
abbrev farAway : Nat := 30 * 365 * 86400 * Duration.perSecond

/-- The instant that lies a span after the time `now`, if it can be named. -/
def after? (now : Nat) (span : Duration) : Option Nat :=
  let instant := now * tick + span.nanos
  if instant < horizon then some instant else none

/-- The instant that lies a span after the time `now`, or thirty years after it. -/
def after (now : Nat) (span : Duration) : Nat :=
  (after? now span).getD (now * tick + farAway)

/-- The instant of a series that follows another one after a period, or thirty years after the time
`now`. -/
def next (now instant : Nat) (period : Duration) : Nat :=
  if instant + period.nanos < horizon then instant + period.nanos else now * tick + farAway

/-- Whether the clock has reached a deadline. -/
def isDue (now deadline : Nat) : Bool := deadline ≤ now * tick

/-- The milliseconds until a deadline is due. -/
def untilDue (now deadline : Nat) : Nat := (deadline + (tick - 1)) / tick - now

/-- A deadline is due exactly when no time is left until it. -/
theorem isDue_iff (now deadline : Nat) : isDue now deadline = true ↔ untilDue now deadline = 0 := by
  simp only [isDue, untilDue, tick, decide_eq_true_eq]
  omega

end BeeProtocol.Clock
