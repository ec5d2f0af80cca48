/-!
# Taking turns

A schedule is a system of calls that run one at a time. A turn runs one call up to the next point
where it might be suspended. Between the actions of the outside world all calls run until none can
go on, and time passes only then, never past a deadline that has not been served.
-/

namespace BeeProtocol

/-- A system of calls that take turns. -/
class Schedule (σ : Type) where
  /-- Whether a call can go on without new input or time. -/
  isBusy : σ → Bool
  /-- Lets the first call that can go on take its turn. -/
  turn : σ → σ
  /-- A bound for the number of turns until no call can go on. -/
  work : σ → Nat
  /-- The milliseconds until the next deadline. -/
  untilDeadline : σ → Option Nat
  /-- Lets milliseconds pass and wakes the calls whose deadlines are due. -/
  pass : Nat → σ → σ

namespace Schedule

variable {σ : Type} [Schedule σ]

/-- Gives turns while a call can go on, at most `fuel` of them. -/
def run : Nat → σ → σ
  | 0, s => s
  | fuel + 1, s => if isBusy s then run fuel (turn s) else s

/-- Gives turns until no call can go on. -/
def settle (s : σ) : σ := run (work s) s

/-- Lets `gap` milliseconds pass, stopping at every deadline on the way to let the calls run. -/
def elapse (gap : Nat) (s : σ) : σ :=
  if gap = 0 then s
  else
    let step := max 1 (min gap ((untilDeadline s).getD gap))
    elapse (gap - step) (settle (pass step s))
termination_by gap
decreasing_by omega

end Schedule

end BeeProtocol
