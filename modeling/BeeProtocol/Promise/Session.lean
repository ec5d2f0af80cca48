import BeeProtocol.Promise.Basic
import BeeProtocol.Time.Clock
import BeeProtocol.Time.Schedule

/-!
# Waiting for a promise

Any number of calls may wait for one promise, each with a bound or without one. A completion wakes
all of them. A wait first looks for an outcome and only then at its deadline, so an outcome that is
there wins over a deadline that is due.
-/

namespace BeeProtocol.Promise

/-- A call that waits. -/
structure Wait where
  /-- What the call is called. -/
  label : Nat
  /-- How long it waits at most, for its error to say so. -/
  bound : Option Duration
  /-- The nanosecond at which it gives up, if it ever does. -/
  deadline : Option Nat

/-- The failure of a wait that passed its deadline. -/
def timeout (bound : Duration) : ClientError :=
  .timeout s!"no response within {bound.text}"

/-- What a wait ends with if it can go on at the time `now`. -/
def Wait.result? {α : Type} (now : Nat) (promise : Promise α) (wait : Wait) : Option (Outcome α) :=
  match promise.outcome with
  | some outcome => some outcome
  | none =>
    match wait.bound, wait.deadline with
    | some bound, some deadline =>
      if Clock.isDue now deadline then some (.error (timeout bound)) else none
    | _, _ => none

/-- A promise and the calls that wait for it. -/
structure Session (α : Type) where
  /-- The milliseconds since the start. -/
  now : Nat
  /-- The promise that is waited for. -/
  promise : Promise α
  /-- The calls that wait, in the order in which they have begun. -/
  waits : List Wait
  /-- The labels of the calls that can go on, in the order in which they were woken. -/
  ready : List Nat
  /-- The waits that have ended, oldest first. -/
  finished : List (Nat × Outcome α)
  /-- The callbacks that have run, oldest first. -/
  notices : List (Notice α)

namespace Session

variable {α : Type}

/-- A promise that is not complete and that nobody waits for. -/
def empty : Session α := ⟨0, .empty, [], [], [], []⟩

/-- Wakes the calls with these labels. -/
def wake (s : Session α) (labels : List Nat) : Session α :=
  { s with ready := s.ready ++ labels.filter fun label => !s.ready.contains label }

/-- Completes the promise; true if this call did it. -/
def complete (s : Session α) (outcome : Outcome α) : Bool × Session α :=
  let (accepted, promise, notices) := s.promise.complete outcome
  let s' := { s with promise := promise, notices := s.notices ++ notices }
  (accepted, if accepted then s'.wake (s.waits.map (·.label)) else s')

/-- Registers a callback. -/
def onComplete (s : Session α) (callback : Callback α) : Session α :=
  let (promise, notices) := s.promise.onComplete callback
  { s with promise := promise, notices := s.notices ++ notices }

/-- Starts a wait. -/
def wait (s : Session α) (label : Nat) (bound : Option Duration) : Session α :=
  { s with
    waits := s.waits ++ [⟨label, bound, bound.map (Clock.after s.now)⟩]
    ready := s.ready ++ [label] }

/-- Whether a wait is going on. -/
def isRunning (s : Session α) (label : Nat) : Bool := s.waits.any (·.label == label)

/-- Takes a wait off, however it stands. -/
def cancel (s : Session α) (label : Nat) : Session α :=
  { s with
    waits := s.waits.filter (·.label != label)
    ready := s.ready.filter (· != label) }

/-- Ends a wait with its result. -/
def finish (s : Session α) (label : Nat) (outcome : Outcome α) : Session α :=
  { s.cancel label with finished := s.finished ++ [(label, outcome)] }

/-- Lets the call with this label go on. -/
def turnOf (s : Session α) (label : Nat) : Session α :=
  let s := { s with ready := s.ready.erase label }
  match s.waits.find? (·.label == label) with
  | none => s
  | some wait =>
    match wait.result? s.now s.promise with
    | some outcome => s.finish label outcome
    | none => s

/-- Lets time pass and wakes the waits that are due. -/
def pass (s : Session α) (gap : Nat) : Session α :=
  let s := { s with now := s.now + gap }
  s.wake ((s.waits.filter fun wait => wait.deadline.any (Clock.isDue s.now)).map (·.label))

instance : Schedule (Session α) where
  isBusy s := !s.ready.isEmpty
  turn s := s.ready.head?.elim s s.turnOf
  work s := s.ready.length
  untilDeadline s := (s.waits.filterMap fun wait => wait.deadline.map (Clock.untilDue s.now)).min?
  pass gap s := s.pass gap

end Session

end BeeProtocol.Promise
