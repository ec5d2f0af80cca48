import BeeProtocol.Error

/-!
# Promises

A promise is assigned once. The first completion wins and runs the callbacks that were registered
before it, in order; a callback registered later runs at once. A callback may itself try to complete
the promise, which is then always refused.
-/

namespace BeeProtocol

/-- What a promise is completed with. -/
abbrev Outcome (α : Type) := Except ClientError α

/-- Runs when the promise is complete; `attempt` is a value that it then tries to complete the
promise with. -/
structure Callback (α : Type) where
  /-- What the callback is called in the notices. -/
  label : Nat
  /-- What it tries to complete the promise with. -/
  attempt : Option α

/-- A record of one run of a callback: the outcome it was given, and whether its own attempt was
accepted. -/
structure Notice (α : Type) where
  /-- The callback that has run. -/
  label : Nat
  /-- The outcome that it was given. -/
  outcome : Outcome α
  /-- Whether its own attempt was accepted, if it made one. -/
  accepted : Option Bool

/-- A cell that is assigned once. -/
structure Promise (α : Type) where
  /-- What the promise was completed with. -/
  outcome : Option (Outcome α)
  /-- What runs when it is completed. -/
  callbacks : List (Callback α)

/-- The text of an outcome's state in diagnostics. -/
def Promise.summary {α : Type} (promise : Promise α) : String :=
  "Promise \x7b complete: " ++ (if promise.outcome.isSome then "true" else "false") ++ " \x7d"

namespace Promise

variable {α : Type}

/-- A promise that is not complete. -/
def empty : Promise α := ⟨none, []⟩

/-- Whether the promise has an outcome. -/
def isComplete (promise : Promise α) : Bool := promise.outcome.isSome

/-- Runs a callback on a complete promise. -/
def notify (promise : Promise α) (outcome : Outcome α) (callback : Callback α) : Notice α :=
  ⟨callback.label, outcome, callback.attempt.map fun _ => !promise.isComplete⟩

/-- Completes the promise unless it is complete: whether this call did it, the promise afterwards,
and the callbacks that ran. -/
def complete (promise : Promise α) (outcome : Outcome α) :
    Bool × Promise α × List (Notice α) :=
  match promise.outcome with
  | some _ => (false, promise, [])
  | none =>
    let after : Promise α := ⟨some outcome, []⟩
    (true, after, promise.callbacks.map (after.notify outcome))

/-- Registers a callback, or runs it if the promise is complete. -/
def onComplete (promise : Promise α) (callback : Callback α) :
    Promise α × List (Notice α) :=
  match promise.outcome with
  | some outcome => (promise, [promise.notify outcome callback])
  | none => ({ promise with callbacks := promise.callbacks ++ [callback] }, [])

end Promise

end BeeProtocol
