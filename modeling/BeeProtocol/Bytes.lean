/-!
# Fixed-width numbers and counted bytes

Numbers on the wire are unsigned, big-endian and of a fixed width. A field of `width` bytes
written by `Bytes.ofNat` reads back through `Bytes.toNat` as the number modulo `256 ^ width`.
-/

namespace BeeProtocol.Bytes

/-- The `width` low bytes of a number, most significant first. -/
def ofNat : Nat → Nat → List UInt8
  | 0, _ => []
  | width + 1, n => ofNat width (n / 256) ++ [UInt8.ofNat n]

/-- The number whose base-256 digits are the bytes, most significant first. -/
def toNat (bytes : List UInt8) : Nat :=
  bytes.foldl (fun n byte => 256 * n + byte.toNat) 0

/-- Whether at least `count` bytes are present, decided without counting the rest. -/
def hasAtLeast (count : Nat) (bytes : List UInt8) : Bool :=
  count == 0 || !(bytes.drop (count - 1)).isEmpty

/-- The first `count` bytes and the bytes after them, if there are that many. -/
def split? (count : Nat) (bytes : List UInt8) : Option (List UInt8 × List UInt8) :=
  if hasAtLeast count bytes then some (bytes.take count, bytes.drop count) else none

/-- Every field written with a width has that width. -/
@[simp] theorem length_ofNat (width n : Nat) : (ofNat width n).length = width := by
  induction width generalizing n with
  | zero => rfl
  | succ width ih => simp [ofNat, ih]

/-- The test agrees with counting. -/
theorem hasAtLeast_iff (count : Nat) (bytes : List UInt8) :
    hasAtLeast count bytes = true ↔ count ≤ bytes.length := by
  simp only [hasAtLeast, Bool.or_eq_true, beq_iff_eq, Bool.not_eq_eq_eq_not, Bool.not_true,
    List.isEmpty_eq_false_iff, ne_eq, List.drop_eq_nil_iff]
  omega

end BeeProtocol.Bytes
