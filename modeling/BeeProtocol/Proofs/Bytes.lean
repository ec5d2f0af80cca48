import BeeProtocol.Bytes
import Mathlib.Data.List.Induction
import Mathlib.Tactic.Ring

/-!
# Fixed-width numbers and their bytes

Writing a number with a fixed width and reading bytes as a number are inverse to each other, as long
as the number fits the width. The frames rest on this for their lengths and checksums.
-/

namespace BeeProtocol.Bytes

/-- One more byte at the end is one more digit. -/
theorem toNat_append_singleton (bytes : List UInt8) (byte : UInt8) :
    toNat (bytes ++ [byte]) = 256 * toNat bytes + byte.toNat := by
  simp [toNat, List.foldl_append]

/-- The number that some bytes make fits their number of digits. -/
theorem toNat_lt (bytes : List UInt8) : toNat bytes < 256 ^ bytes.length := by
  induction bytes using List.reverseRecOn with
  | nil => simp [toNat]
  | append_singleton bytes byte ih =>
    have hbyte := byte.toNat_lt
    rw [toNat_append_singleton, List.length_append, List.length_singleton, pow_succ]
    omega

/-- A number that fits the width is read back. -/
theorem toNat_ofNat {width n : Nat} (h : n < 256 ^ width) : toNat (ofNat width n) = n := by
  induction width generalizing n with
  | zero => simp only [pow_zero, Nat.lt_one_iff] at h; simp [h, ofNat, toNat]
  | succ width ih =>
    have hquotient : n / 256 < 256 ^ width := by rw [pow_succ] at h; omega
    rw [ofNat, toNat_append_singleton, ih hquotient, UInt8.toNat_ofNat']
    omega

/-- Bytes are the digits of the number that they make. -/
theorem ofNat_toNat (bytes : List UInt8) : ofNat bytes.length (toNat bytes) = bytes := by
  induction bytes using List.reverseRecOn with
  | nil => rfl
  | append_singleton bytes byte ih =>
    have hbyte := byte.toNat_lt
    have hhigh : (256 * toNat bytes + byte.toNat) / 256 = toNat bytes := by omega
    have hlow : UInt8.ofNat (256 * toNat bytes + byte.toNat) = byte := by
      apply UInt8.toNat_inj.mp
      rw [UInt8.toNat_ofNat']
      omega
    rw [toNat_append_singleton, List.length_append, List.length_singleton, ofNat, hhigh, ih, hlow]

/-- Bytes of a width are the ones that a number is written with exactly when they make it. -/
theorem eq_ofNat_iff {width n : Nat} {bytes : List UInt8} (hlength : bytes.length = width)
    (hn : n < 256 ^ width) : bytes = ofNat width n ↔ toNat bytes = n := by
  constructor
  · rintro rfl
    exact toNat_ofNat hn
  · rintro rfl
    rw [← hlength, ofNat_toNat]

end BeeProtocol.Bytes
