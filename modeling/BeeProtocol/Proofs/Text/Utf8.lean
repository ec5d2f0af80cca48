import BeeProtocol.Text.Utf8
import Mathlib.Data.Nat.Basic
import Mathlib.Tactic.SplitIfs

/-!
# UTF-8 spells each text once

A character has one sequence of bytes, of one of four shapes, and decoding reads a character exactly
where its sequence stands. So the byte strings that decoding accepts are the encodings of texts, and
what it gives for one of them is the text that was encoded.
-/

namespace BeeProtocol.Utf8

/-! ### Classes of bytes as ranges -/

/-- A continuation byte is one from 128 to 191. -/
theorem isContinuation_iff (byte : UInt8) :
    isContinuation byte = true ↔ 128 ≤ byte.toNat ∧ byte.toNat ≤ 191 := by
  simp [isContinuation, UInt8.le_iff_toNat_le]

/-- The second bytes that may follow a first byte, without the overlong forms, the surrogates and
the code points past the last one. -/
theorem mayFollow_iff (lead second : UInt8) :
    mayFollow lead second = true ↔ 128 ≤ second.toNat ∧ second.toNat ≤ 191 ∧
      (lead.toNat = 224 → 160 ≤ second.toNat) ∧ (lead.toNat = 237 → second.toNat ≤ 159) ∧
      (lead.toNat = 240 → 144 ≤ second.toNat) ∧ (lead.toNat = 244 → second.toNat ≤ 143) := by
  simp only [mayFollow, isContinuation, ← UInt8.toNat_inj, UInt8.reduceToNat]
  split_ifs <;> simp only [Bool.and_eq_true, decide_eq_true_eq, UInt8.le_iff_toNat_le,
    UInt8.reduceToNat] <;> omega

/-- How long a character is that starts with a byte. -/
theorem width_iff (lead : UInt8) :
    (width lead = 1 ↔ lead.toNat < 128) ∧
      (width lead = 2 ↔ 194 ≤ lead.toNat ∧ lead.toNat < 224) ∧
      (width lead = 3 ↔ 224 ≤ lead.toNat ∧ lead.toNat < 240) ∧
      (width lead = 4 ↔ 240 ≤ lead.toNat ∧ lead.toNat < 245) := by
  simp only [width, UInt8.lt_iff_toNat_lt, UInt8.reduceToNat]
  split_ifs <;> simp <;> omega

/-! ### The four shapes of a character -/

/-- A code point that is valid is that of its character. -/
theorem toNat_ofNat {n : Nat} (h : n.isValidChar) : (Char.ofNat n).toNat = n := by
  rw [Char.ofNat, dif_pos h]
  rfl

/-- A number stands for a byte if it is that byte modulo 256. -/
theorem ofNat_eq_iff (n : Nat) (byte : UInt8) : UInt8.ofNat n = byte ↔ n % 256 = byte.toNat := by
  rw [← UInt8.toNat_inj, UInt8.toNat_ofNat']

section Shapes

variable (char : Char) (a b c d : UInt8)

/-- A character of one byte is its code point. -/
theorem encodeChar_eq_one_iff :
    String.utf8EncodeChar char = [a] ↔ width a = 1 ∧ char.toNat = a.toNat := by
  have hvalid : char.toNat.isValidChar := char.valid
  have hcode : char.val.toNat = char.toNat := rfl
  simp only [String.utf8EncodeChar, hcode, (width_iff a).1]
  split_ifs <;>
    simp only [List.cons.injEq, reduceCtorEq, and_true, and_false, false_iff, ofNat_eq_iff] <;>
    omega

/-- A character of two bytes has five bits in the first and six in the other. -/
theorem encodeChar_eq_two_iff :
    String.utf8EncodeChar char = [a, b] ↔ width a = 2 ∧ mayFollow a b ∧
      char.toNat = a.toNat % 32 * 64 + low b := by
  have hvalid : char.toNat.isValidChar := char.valid
  have hcode : char.val.toNat = char.toNat := rfl
  simp only [String.utf8EncodeChar, hcode, (width_iff a).2.1, mayFollow_iff, low]
  split_ifs <;>
    simp only [List.cons.injEq, reduceCtorEq, and_true, and_false, false_iff, ofNat_eq_iff]
  · omega
  · constructor
    · rintro ⟨ha, hb⟩
      and_intros <;> omega
    · rintro ⟨ha, hb, hn⟩
      and_intros <;> omega
  · omega
  · omega

/-- A character of three bytes has four bits in the first and six in each other. -/
theorem encodeChar_eq_three_iff :
    String.utf8EncodeChar char = [a, b, c] ↔ width a = 3 ∧ mayFollow a b ∧ isContinuation c ∧
      char.toNat = a.toNat % 16 * 4096 + low b * 64 + low c := by
  have hvalid : char.toNat.isValidChar := char.valid
  have hcode : char.val.toNat = char.toNat := rfl
  simp only [String.utf8EncodeChar, hcode, (width_iff a).2.2.1, mayFollow_iff, isContinuation_iff,
    low]
  split_ifs <;>
    simp only [List.cons.injEq, reduceCtorEq, and_true, and_false, false_iff, ofNat_eq_iff]
  · omega
  · omega
  · constructor
    · rintro ⟨ha, hb, hc⟩
      and_intros <;> omega
    · rintro ⟨ha, hb, hc, hn⟩
      and_intros <;> omega
  · omega

/-- A character of four bytes has three bits in the first and six in each other. -/
theorem encodeChar_eq_four_iff :
    String.utf8EncodeChar char = [a, b, c, d] ↔ width a = 4 ∧ mayFollow a b ∧ isContinuation c ∧
      isContinuation d ∧
      char.toNat = a.toNat % 8 * 262144 + low b * 4096 + low c * 64 + low d := by
  have hvalid : char.toNat.isValidChar := char.valid
  have hcode : char.val.toNat = char.toNat := rfl
  simp only [String.utf8EncodeChar, hcode, (width_iff a).2.2.2, mayFollow_iff, isContinuation_iff,
    low]
  split_ifs <;>
    simp only [List.cons.injEq, reduceCtorEq, and_true, and_false, false_iff, ofNat_eq_iff]
  · omega
  · omega
  · omega
  · constructor
    · rintro ⟨ha, hb, hc, hd⟩
      and_intros <;> omega
    · rintro ⟨ha, hb, hc, hd, hn⟩
      and_intros <;> omega

variable {a b c d}

/-- Bytes of a shape are those of the character whose code point they carry. -/
theorem encodeChar_one (ha : width a = 1) :
    String.utf8EncodeChar (Char.ofNat a.toNat) = [a] := by
  have hlead := (width_iff a).1.mp ha
  exact (encodeChar_eq_one_iff _ a).mpr ⟨ha, toNat_ofNat (.inl (by omega))⟩

/-- Two bytes that may stand together are those of a character. -/
theorem encodeChar_two (ha : width a = 2) (hb : mayFollow a b) :
    String.utf8EncodeChar (Char.ofNat (a.toNat % 32 * 64 + low b)) = [a, b] := by
  have hlead := (width_iff a).2.1.mp ha
  refine (encodeChar_eq_two_iff _ a b).mpr ⟨ha, hb, toNat_ofNat (.inl ?_)⟩
  unfold low
  omega

/-- Three bytes that may stand together are those of a character. -/
theorem encodeChar_three (ha : width a = 3) (hb : mayFollow a b) (hc : isContinuation c) :
    String.utf8EncodeChar (Char.ofNat (a.toNat % 16 * 4096 + low b * 64 + low c)) = [a, b, c] := by
  have hlead := (width_iff a).2.2.1.mp ha
  have hsecond := (mayFollow_iff a b).mp hb
  refine (encodeChar_eq_three_iff _ a b c).mpr ⟨ha, hb, hc, toNat_ofNat ?_⟩
  unfold low Nat.isValidChar
  omega

/-- Four bytes that may stand together are those of a character. -/
theorem encodeChar_four (ha : width a = 4) (hb : mayFollow a b) (hc : isContinuation c)
    (hd : isContinuation d) :
    String.utf8EncodeChar
      (Char.ofNat (a.toNat % 8 * 262144 + low b * 4096 + low c * 64 + low d)) = [a, b, c, d] := by
  have hlead := (width_iff a).2.2.2.mp ha
  have hsecond := (mayFollow_iff a b).mp hb
  refine (encodeChar_eq_four_iff _ a b c d).mpr ⟨ha, hb, hc, hd, toNat_ofNat (.inr ?_)⟩
  unfold low
  omega

end Shapes

/-! ### Whole texts -/

/-- A character is read where its bytes stand. -/
theorem decodeFrom_encodeChar (index : Nat) (done : List Char) (char : Char) (rest : List UInt8) :
    decodeFrom index done (String.utf8EncodeChar char ++ rest) =
      decodeFrom (index + char.utf8Size) (char :: done) rest := by
  have hback : Char.ofNat char.toNat = char := Char.ofNat_toNat char
  have hsize := String.length_utf8EncodeChar char
  have hpos := char.utf8Size_pos
  have hfour := char.utf8Size_le_four
  rw [← hsize] at hpos hfour ⊢
  match hbytes : String.utf8EncodeChar char with
  | [] => simp [hbytes] at hpos
  | [a] =>
    obtain ⟨hwidth, hcode⟩ := (encodeChar_eq_one_iff char a).mp hbytes
    rw [List.singleton_append, decodeFrom.eq_def]
    simp [hwidth, ← hcode, hback]
  | [a, b] =>
    obtain ⟨hwidth, hb, hcode⟩ := (encodeChar_eq_two_iff char a b).mp hbytes
    rw [List.cons_append, List.singleton_append, decodeFrom.eq_def]
    simp [hwidth, hb, ← hcode, hback]
  | [a, b, c] =>
    obtain ⟨hwidth, hb, hc, hcode⟩ := (encodeChar_eq_three_iff char a b c).mp hbytes
    rw [List.cons_append, decodeFrom.eq_def]
    simp [hwidth, hb, hc, ← hcode, hback]
  | [a, b, c, d] =>
    obtain ⟨hwidth, hb, hc, hd, hcode⟩ := (encodeChar_eq_four_iff char a b c d).mp hbytes
    rw [List.cons_append, decodeFrom.eq_def]
    simp [hwidth, hb, hc, hd, ← hcode, hback]
  | _ :: _ :: _ :: _ :: _ :: _ =>
    rw [hbytes] at hfour
    simp only [List.length_cons] at hfour
    omega

/-- Decoding reads all characters of a text. -/
theorem decodeFrom_encode (text : List Char) (index : Nat) (done : List Char) :
    decodeFrom index done (text.flatMap String.utf8EncodeChar) = .ok (done.reverse ++ text) := by
  induction text generalizing index done with
  | nil => simp [decodeFrom]
  | cons char text ih =>
    rw [List.flatMap_cons, decodeFrom_encodeChar, ih, List.reverse_cons, List.append_assoc,
      List.singleton_append]

/-- A text with one more character in front. -/
theorem exists_text_cons {done chars : List Char} {char : Char} {front rest : List UInt8}
    (hfront : String.utf8EncodeChar char = front)
    (hrest : ∃ text : List Char, rest = text.flatMap String.utf8EncodeChar ∧
      chars = (char :: done).reverse ++ text) :
    ∃ text : List Char, front ++ rest = text.flatMap String.utf8EncodeChar ∧
      chars = done.reverse ++ text := by
  obtain ⟨text, rfl, rfl⟩ := hrest
  exact ⟨char :: text, by rw [List.flatMap_cons, hfront], by simp⟩

/-- Bytes that are read to their end spell the characters that are read. -/
theorem spells_of_decodeFrom {index : Nat} {done : List Char} {bytes : List UInt8}
    {chars : List Char} (h : decodeFrom index done bytes = .ok chars) :
    ∃ text : List Char, bytes = text.flatMap String.utf8EncodeChar ∧
      chars = done.reverse ++ text := by
  fun_induction decodeFrom index done bytes with
  | case1 => exact ⟨[], rfl, by simpa using (Except.ok.inj h).symm⟩
  | case2 index done a rest ha ih => exact exists_text_cons (encodeChar_one ha) (ih h)
  | case4 index done a ha b rest hb ih => exact exists_text_cons (encodeChar_two ha hb) (ih h)
  | case10 index done a ha b c rest hb hc ih =>
    exact exists_text_cons (encodeChar_three ha (by simpa using hb) (by simpa using hc)) (ih h)
  | case17 index done a ha b c d rest hb hc hd ih =>
    exact exists_text_cons
      (encodeChar_four ha (by simpa using hb) (by simpa using hc) (by simpa using hd)) (ih h)
  | _ => cases h

/-- The byte strings that decoding accepts are the encodings of texts. -/
theorem decode_eq_ok_iff (bytes : List UInt8) (text : String) :
    decode bytes = .ok text ↔ bytes = encode text := by
  unfold decode encode
  constructor
  · intro h
    cases hread : decodeFrom 0 [] bytes with
    | error fault => rw [hread] at h; cases h
    | ok chars =>
      rw [hread] at h
      obtain ⟨spelled, hbytes, hchars⟩ := spells_of_decodeFrom hread
      obtain rfl : String.ofList chars = text := Except.ok.inj h
      rw [hbytes, String.toList_ofList, hchars, List.reverse_nil, List.nil_append]
  · rintro rfl
    rw [decodeFrom_encode]
    simp [Except.map]

end BeeProtocol.Utf8
