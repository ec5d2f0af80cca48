/-!
# Reading from the front of a byte string

A parser reads one item from the front of the bytes and leaves the rest, or fails with a reason.
-/

namespace BeeProtocol

/-- Reads an item from the front of the bytes, or fails. -/
abbrev Parser (ε α : Type) := StateT (List UInt8) (Except ε) α

namespace Parser

/-- Reads with other reasons for failure. -/
def mapError {ε δ α : Type} (f : ε → δ) (parser : Parser ε α) : Parser δ α := fun bytes =>
  match parser bytes with
  | .ok result => .ok result
  | .error reason => .error (f reason)

/-- Fails with a reason. -/
def fail {ε α : Type} (reason : ε) : Parser ε α := fun _ => .error reason

/-- Reads `count` items one after another. -/
def replicate {ε α : Type} (parser : Parser ε α) : Nat → Parser ε (List α)
  | 0 => pure []
  | count + 1 => do
    let item ← parser
    let items ← replicate parser count
    return item :: items

/-- Reads one item and ignores what follows it. -/
def parse {ε α : Type} (parser : Parser ε α) (bytes : List UInt8) : Except ε α :=
  match parser bytes with
  | .ok (item, _) => .ok item
  | .error reason => .error reason

end Parser

end BeeProtocol
