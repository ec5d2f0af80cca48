import BeeProtocol.Proofs.Frame.Scanning

/-!
# The scanner with checked reads

A second scanner works by positions and checks every read and every move against the size of the
buffer: one that falls outside gives `none`. It skips noise by looking for the next mark before it
looks at an envelope. It agrees with the first scanner on every buffer. So no read falls outside,
and the place where scanning stops is the front of the buffer.
-/

namespace BeeProtocol

namespace Bytes

/-- The bytes from a position up to another one, if they are all there. -/
def slice? (bytes : List UInt8) (start stop : Nat) : Option (List UInt8) :=
  if start ≤ stop ∧ stop ≤ bytes.length then some ((bytes.drop start).take (stop - start)) else none

/-- The bytes after the first `count` ones, if there are that many. -/
def advance? (bytes : List UInt8) (count : Nat) : Option (List UInt8) :=
  if count ≤ bytes.length then some (bytes.drop count) else none

/-- A slice that ends in time is there. -/
theorem slice?_eq {bytes : List UInt8} {start stop : Nat} (hstart : start ≤ stop)
    (hstop : stop ≤ bytes.length) :
    slice? bytes start stop = some ((bytes.drop start).take (stop - start)) :=
  if_pos ⟨hstart, hstop⟩

/-- A move that ends in time succeeds. -/
theorem advance?_eq {bytes : List UInt8} {count : Nat} (h : count ≤ bytes.length) :
    advance? bytes count = some (bytes.drop count) :=
  if_pos h

end Bytes

namespace Codec

/-- The first of `count` positions from `i` on that holds a mark or a last byte FF, else the end. -/
def nextMark? (buffer : List UInt8) : Nat → Nat → Option Nat
  | 0, _ => some buffer.length
  | count + 1, i => do
    let byte ← buffer[i]?
    if byte = 0xFF then
      if i + 1 = buffer.length then return i
      else if (← buffer[i + 1]?) = 0xFF then return i
      else nextMark? buffer count (i + 1)
    else nextMark? buffer count (i + 1)

/-- Drops the bytes in front of the next mark. -/
def skipNoise? (buffer : List UInt8) : Option (List UInt8) :=
  if buffer.length < 2 then some buffer
  else do
    if (← Bytes.slice? buffer 0 2) = [0xFF, 0xFF] then return buffer
    else Bytes.advance? buffer (← nextMark? buffer (buffer.length - 1) 1)

/-- Judges the envelope behind the mark. -/
def judge? (codec : Codec) (buffer : List UInt8) : Option Sighting :=
  if buffer.length < Frame.overhead then some .undecided
  else do
    let type ← buffer[2]?
    let size := Bytes.toNat (← Bytes.slice? buffer 3 11)
    if codec.limit < size then return .noise
    else if buffer.length < size + Frame.overhead then return .undecided
    else
      let checksum := Bytes.toNat (← Bytes.slice? buffer (11 + size) (19 + size))
      let ending ← Bytes.slice? buffer (19 + size) (21 + size)
      if checksum ≠ size + Frame.overhead ∨ ending ≠ [0x0D, 0x0A] then return .noise
      else
        let body ← Bytes.advance? buffer 11
        let payload ← Bytes.slice? body 0 size
        let behind ← Bytes.advance? (← Bytes.advance? body size) 10
        return .found ⟨type, payload⟩ behind

/-- Takes the first frame out of the buffer, after at most `fuel` rounds. -/
def scan? (codec : Codec) : Nat → List UInt8 → Option (Option Frame × List UInt8)
  | 0, _ => none
  | fuel + 1, buffer => do
    let buffer ← skipNoise? buffer
    match ← codec.judge? buffer with
    | .undecided => return (none, buffer)
    | .found frame rest => return (some frame, rest)
    | .noise => codec.scan? fuel (← Bytes.advance? buffer 1)

/-! ### Skipping noise -/

/-- A position whose two bytes are not the mark, or whose last byte is not FF, is refuted. -/
theorem refuted_of_no_mark {codec : Codec} {buffer : List UInt8} {i : Nat}
    (hi : i < buffer.length)
    (h : ¬ (buffer[i]? = some 0xFF ∧ (i + 1 = buffer.length ∨ buffer[i + 1]? = some 0xFF))) :
    codec.Refuted buffer i := by
  by_cases hlast : i + 1 = buffer.length
  · exact Or.inl ⟨hlast, fun hbyte => h ⟨hbyte, Or.inl hlast⟩⟩
  · refine Or.inr (Or.inl ⟨by omega, fun hmark => h ⟨?_, Or.inr ?_⟩⟩)
    · have hfirst := congrArg (fun pair : List UInt8 => pair[0]?) hmark
      simpa [Bytes.pair] using hfirst
    · have hsecond := congrArg (fun pair : List UInt8 => pair[1]?) hmark
      simpa [Bytes.pair] using hsecond

/-- The next mark is found without a read outside, and all positions before it are refuted. -/
theorem nextMark?_spec (codec : Codec) (buffer : List UInt8) {count i : Nat}
    (hcount : count + i = buffer.length) :
    ∃ n, nextMark? buffer count i = some n ∧ i ≤ n ∧ n ≤ buffer.length ∧
      (∀ j, i ≤ j → j < n → codec.Refuted buffer j) ∧
      (n < buffer.length →
        buffer[n]? = some 0xFF ∧ (n + 1 = buffer.length ∨ buffer[n + 1]? = some 0xFF)) := by
  induction count generalizing i with
  | zero => exact ⟨buffer.length, rfl, by omega, le_rfl, fun j _ _ => by omega, by omega⟩
  | succ count ih =>
    have hi : i < buffer.length := by omega
    obtain ⟨n, hn, hin, hlength, hrefuted, hmark⟩ := ih (i := i + 1) (by omega)
    by_cases h : buffer[i]? = some 0xFF ∧ (i + 1 = buffer.length ∨ buffer[i + 1]? = some 0xFF)
    · refine ⟨i, ?_, le_rfl, hi.le, fun j _ _ => by omega, fun _ => h⟩
      obtain ⟨hbyte, hlast | hsecond⟩ := h
      · simp [nextMark?, hbyte, hlast]
      · simp [nextMark?, hbyte, hsecond]
    · have hnext : nextMark? buffer (count + 1) i = nextMark? buffer count (i + 1) := by
        have hbyte := List.getElem?_eq_getElem hi
        by_cases hfirst : buffer[i] = 0xFF
        · have hnot : ¬ (i + 1 = buffer.length ∨ buffer[i + 1]? = some 0xFF) := by
            intro hor
            exact h ⟨by rw [hbyte, hfirst], hor⟩
          have hlast : ¬ i + 1 = buffer.length := by
            intro hor
            exact hnot (Or.inl hor)
          have hsecond := List.getElem?_eq_getElem (show i + 1 < buffer.length by omega)
          have hother : ¬ buffer[i + 1] = 0xFF := by
            intro hor
            exact hnot (Or.inr (by rw [hsecond, hor]))
          simp [nextMark?, hbyte, hfirst, hlast, hsecond, hother]
        · simp [nextMark?, hbyte, hfirst]
      refine ⟨n, hnext.trans hn, by omega, hlength, ?_, hmark⟩
      intro j hij hjn
      by_cases hj : j = i
      · subst hj
        exact refuted_of_no_mark hi h
      · exact hrefuted j (by omega) hjn

/-- Skipping noise reads nothing outside and drops only refuted positions. What is left is empty, a
last byte FF, or starts with the mark. -/
theorem skipNoise?_spec (codec : Codec) {buffer : List UInt8} (hone : buffer.length ≠ 1) :
    ∃ n, skipNoise? buffer = some (buffer.drop n) ∧ (∀ j < n, codec.Refuted buffer j) ∧
      (buffer.drop n = [] ∨ buffer.drop n = [0xFF] ∨ (buffer.drop n).take 2 = [0xFF, 0xFF]) := by
  by_cases hshort : buffer.length < 2
  · have hempty : buffer = [] := List.eq_nil_of_length_eq_zero (by omega)
    exact ⟨0, by simp [skipNoise?, hshort], by omega, Or.inl (by simpa using hempty)⟩
  have hlong : 2 ≤ buffer.length := by omega
  have hfront := Bytes.slice?_eq (Nat.zero_le 2) hlong
  by_cases hmark : buffer.take 2 = [0xFF, 0xFF]
  · exact ⟨0, by simp [skipNoise?, hshort, hfront, hmark], by omega,
      Or.inr (Or.inr (by simpa using hmark))⟩
  have hcount : buffer.length - 1 + 1 = buffer.length := by omega
  obtain ⟨n, hn, hpos, hlength, hrefuted, hnext⟩ := nextMark?_spec codec buffer hcount
  refine ⟨n, ?_, ?_, ?_⟩
  · simp [skipNoise?, hshort, hfront, hmark, hn, Bytes.advance?_eq hlength]
  · intro j hj
    by_cases hj0 : j = 0
    · subst hj0
      exact Or.inr (Or.inl ⟨by omega, by simpa [Bytes.pair] using hmark⟩)
    · exact hrefuted j (by omega) hj
  · by_cases hlt : n < buffer.length
    · have hfirst := List.drop_eq_getElem_cons hlt
      obtain ⟨hbyte, hlast | hsecond⟩ := hnext hlt
      · obtain ⟨_, hbyte'⟩ := List.getElem?_eq_some_iff.mp hbyte
        right; left
        rw [hfirst, hbyte', List.drop_eq_nil_of_le (by omega)]
      · obtain ⟨_, hbyte'⟩ := List.getElem?_eq_some_iff.mp hbyte
        obtain ⟨hlt', hsecond'⟩ := List.getElem?_eq_some_iff.mp hsecond
        right; right
        rw [hfirst, List.drop_eq_getElem_cons hlt', hbyte', hsecond']
        rfl
    · left
      exact List.drop_eq_nil_of_le (by omega)

/-! ### Agreement -/

/-- Judging an envelope reads nothing outside. -/
theorem judge?_eq (codec : Codec) (buffer : List UInt8) :
    codec.judge? buffer = some (codec.inspectEnvelope buffer) := by
  have hoverhead : Frame.overhead = 21 := rfl
  rw [inspectEnvelope_eq, judge?]
  by_cases hshort : buffer.length < Frame.overhead
  · rw [if_pos hshort, if_pos hshort]
  have htype := List.getElem?_eq_getElem (show 2 < buffer.length by omega)
  have hword : Bytes.toNat ((buffer.drop 3).take (11 - 3)) = Bytes.word buffer 3 := rfl
  rw [if_neg hshort, if_neg hshort, htype, Bytes.slice?_eq (by omega) (by omega)]
  simp only [Option.bind_eq_bind, Option.bind_some, Option.pure_def, hword]
  by_cases hover : codec.limit < Bytes.word buffer 3
  · rw [if_pos hover, if_pos hover]
  rw [if_neg hover, if_neg hover]
  by_cases hpart : buffer.length < Bytes.word buffer 3 + Frame.overhead
  · rw [if_pos hpart, if_pos hpart]
  rw [if_neg hpart, if_neg hpart]
  generalize Bytes.word buffer 3 = size at *
  have hsum : Bytes.toNat ((buffer.drop (11 + size)).take (19 + size - (11 + size))) =
      Bytes.word buffer (11 + size) := by
    rw [show 19 + size - (11 + size) = 8 by omega, Bytes.word]
  have htrailer : (buffer.drop (19 + size)).take (21 + size - (19 + size)) =
      Bytes.pair buffer (19 + size) := by
    rw [show 21 + size - (19 + size) = 2 by omega, Bytes.pair]
  rw [Bytes.slice?_eq (by omega) (by omega), Option.bind_some, hsum,
    Bytes.slice?_eq (by omega) (by omega), Option.bind_some, htrailer]
  by_cases hending : Bytes.word buffer (11 + size) = size + Frame.overhead ∧
      Bytes.pair buffer (19 + size) = [0x0D, 0x0A]
  · have hbody : (buffer.drop 11).length = buffer.length - 11 := List.length_drop
    have hbehind : ((buffer.drop 11).drop size).length = buffer.length - 11 - size := by
      rw [List.length_drop, hbody]
    rw [if_neg (by rw [← not_and_or, not_not]; exact hending), if_pos hending,
      Bytes.advance?_eq (by omega), Option.bind_some, Bytes.slice?_eq (by omega) (by omega),
      Option.bind_some, Bytes.advance?_eq (by omega), Option.bind_some,
      Bytes.advance?_eq (by omega), Option.bind_some]
    simp only [List.drop_drop, Nat.add_zero, Nat.sub_zero, List.getD_eq_getElem?_getD, htype,
      Option.getD_some, show 11 + size + 10 = size + Frame.overhead by omega]
  · rw [if_pos (by rwa [not_and_or] at hending), if_neg hending]

/-- Behind the mark the envelope is judged. -/
theorem inspect_of_mark {codec : Codec} {buffer : List UInt8}
    (h : buffer.take 2 = [0xFF, 0xFF]) : codec.inspect buffer = codec.inspectEnvelope buffer := by
  match buffer with
  | [] => simp at h
  | [a] => simp at h
  | a :: b :: tail =>
    obtain ⟨rfl, rfl⟩ : a = 0xFF ∧ b = 0xFF := by simpa using h
    simp [inspect]

/-- On other buffers than those of one byte, the checked scanner seeks. -/
theorem scan?_eq_seek (codec : Codec) {fuel : Nat} {buffer : List UInt8}
    (hfuel : buffer.length < fuel) (hone : buffer.length ≠ 1) :
    codec.scan? fuel buffer = some (codec.seek buffer) := by
  induction fuel generalizing buffer with
  | zero => omega
  | succ fuel ih =>
    obtain ⟨n, hskip, hrefuted, hleft⟩ := skipNoise?_spec codec hone
    have hlength : (buffer.drop n).length ≤ buffer.length := by rw [List.length_drop]; omega
    rw [seek_drop hrefuted, scan?, hskip]
    generalize buffer.drop n = front at *
    simp only [Option.bind_eq_bind, Option.bind_some, judge?_eq]
    have hsight : codec.inspect front = codec.inspectEnvelope front := by
      rcases hleft with rfl | rfl | hmark
      · rfl
      · simp [inspect, inspectEnvelope_eq]
      · exact inspect_of_mark hmark
    rw [← hsight, seek.eq_def]
    cases hfront : codec.inspect front with
    | undecided => rfl
    | found frame rest => rfl
    | noise =>
      -- Noise behind the mark was judged on a whole header, so more than one byte is left.
      have hmany : ¬ front.length < Frame.overhead := by
        intro hfew
        rw [hsight, inspectEnvelope_eq, if_pos hfew] at hfront
        cases hfront
      have hoverhead : Frame.overhead = 21 := rfl
      rw [Bytes.advance?_eq (by omega), Option.bind_some,
        ih (by rw [List.length_drop]; omega) (by rw [List.length_drop]; omega)]
      cases front with
      | nil => simp at hmany
      | cons a rest => rfl

/-- The checked scanner takes the same frame out of the buffer and leaves the same bytes. -/
theorem scan?_eq_decode (codec : Codec) (buffer : List UInt8) :
    codec.scan? (buffer.length + 1) buffer = some (codec.decode buffer) := by
  match buffer with
  | [a] => simp [scan?, skipNoise?, judge?, decode]
  | [] => exact scan?_eq_seek codec (Nat.lt_succ_self _) (by simp)
  | a :: b :: tail => exact scan?_eq_seek codec (Nat.lt_succ_self _) (by simp)

/-! ### The reference -/

/-- Decoding reads nothing outside the buffer and leaves a single byte alone. In any other buffer it
drops the positions before the front, takes out the envelope that is complete at the front, if there
is one, and else keeps everything from the front on. -/
theorem decode_eq_reference (codec : Codec) (buffer : List UInt8) :
    codec.scan? (buffer.length + 1) buffer = some (codec.decode buffer) ∧
      (buffer.length = 1 → codec.decode buffer = (none, buffer)) ∧
      (buffer.length ≠ 1 → ∃ p, codec.IsFront buffer p ∧
        (∀ frame rest,
          codec.decode buffer = (some frame, rest) ↔ codec.EnvelopeAt buffer p frame rest) ∧
        ((¬ ∃ frame rest, codec.EnvelopeAt buffer p frame rest) →
          codec.decode buffer = (none, buffer.drop p))) := by
  refine ⟨codec.scan?_eq_decode buffer, ?_, ?_⟩
  · intro hone
    obtain ⟨a, rfl⟩ := List.length_eq_one_iff.mp hone
    rfl
  · intro hone
    obtain ⟨p, hfront⟩ := codec.exists_isFront buffer
    rw [decode_eq_seek codec hone]
    refine ⟨p, hfront, ?_, seek_of_no_envelope hfront⟩
    intro frame rest
    exact seek_eq_some_iff hfront

/-- The mark of an envelope may overlap a byte FF in front of it. -/
example : default.decode (0xFF :: Frame.envelope ⟨6, []⟩) = (some ⟨6, []⟩, []) := by decide

end Codec

end BeeProtocol
