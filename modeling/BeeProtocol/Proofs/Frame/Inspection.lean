import BeeProtocol.Frame.Scanner
import BeeProtocol.Proofs.Bytes

/-!
# What the scanner sees at the front of a buffer

Each of the three sightings is characterised without the scanner's own steps. An envelope is found
exactly where one was written. A sighting other than an undecided one stands when more bytes arrive,
which is what makes the scanner independent of the cuts between its reads.
-/

namespace BeeProtocol

/-- The number in the eight bytes from a position on. -/
def Bytes.word (bytes : List UInt8) (position : Nat) : Nat :=
  toNat ((bytes.drop position).take 8)

/-- The two bytes from a position on, fewer at the end. -/
def Bytes.pair (bytes : List UInt8) (position : Nat) : List UInt8 :=
  (bytes.drop position).take 2

namespace Bytes

/-- Dropping bytes moves every number towards the front. -/
@[simp] theorem word_drop (bytes : List UInt8) (count position : Nat) :
    word (bytes.drop count) position = word bytes (count + position) := by
  simp [word]

/-- Dropping bytes moves every pair towards the front. -/
@[simp] theorem pair_drop (bytes : List UInt8) (count position : Nat) :
    pair (bytes.drop count) position = pair bytes (count + position) := by
  simp [pair]

/-- Bytes that arrive later do not change a number that is there. -/
theorem word_append {bytes : List UInt8} {position : Nat} (more : List UInt8)
    (h : position + 8 ≤ bytes.length) : word (bytes ++ more) position = word bytes position := by
  rw [word, word, List.drop_append_of_le_length (by omega),
    List.take_append_of_le_length (by rw [List.length_drop]; omega)]

/-- Bytes that arrive later do not change a pair that is there. -/
theorem pair_append {bytes : List UInt8} {position : Nat} (more : List UInt8)
    (h : position + 2 ≤ bytes.length) : pair (bytes ++ more) position = pair bytes position := by
  rw [pair, pair, List.drop_append_of_le_length (by omega),
    List.take_append_of_le_length (by rw [List.length_drop]; omega)]

/-- Ten bytes are a given checksum and a given pair if the number and the pair in them are. -/
theorem ten_eq_iff {bytes : List UInt8} {n : Nat} (hbytes : 10 ≤ bytes.length)
    (hn : n < 256 ^ 8) (mark : List UInt8) :
    bytes.take 10 = ofNat 8 n ++ mark ↔ word bytes 0 = n ∧ pair bytes 8 = mark := by
  have hsplit : bytes.take 10 = bytes.take 8 ++ (bytes.drop 8).take 2 := by
    rw [← List.take_add]
  have height : (bytes.take 8).length = 8 := by rw [List.length_take]; omega
  rw [hsplit, word, pair, List.drop_zero, ← eq_ofNat_iff height hn]
  constructor
  · intro h
    exact List.append_inj h (by rw [height, length_ofNat])
  · rintro ⟨hnumber, hmark⟩
    rw [hnumber, hmark]

end Bytes

namespace Codec

/-- The sighting of an envelope whose mark was seen depends on the buffer's size, on the length that
it states, and on its ending. -/
theorem inspectEnvelope_eq (codec : Codec) (buffer : List UInt8) :
    codec.inspectEnvelope buffer =
      if buffer.length < Frame.overhead then .undecided
      else if codec.limit < Bytes.word buffer 3 then .noise
      else if buffer.length < Bytes.word buffer 3 + Frame.overhead then .undecided
      else if Bytes.word buffer (11 + Bytes.word buffer 3) = Bytes.word buffer 3 + Frame.overhead ∧
          Bytes.pair buffer (19 + Bytes.word buffer 3) = [0x0D, 0x0A] then
        .found ⟨buffer.getD 2 0, (buffer.drop 11).take (Bytes.word buffer 3)⟩
          (buffer.drop (Bytes.word buffer 3 + Frame.overhead))
      else .noise := by
  have hlimit := codec.limit_le
  have hsize : Bytes.toNat ((buffer.drop 3).take 8) = Bytes.word buffer 3 := rfl
  simp only [inspectEnvelope, Bool.not_eq_true', ← Bool.not_eq_true, Bytes.hasAtLeast_iff,
    Nat.not_le, hsize]
  by_cases hshort : buffer.length < Frame.overhead
  · rw [if_pos hshort, if_pos hshort]
  rw [if_neg hshort, if_neg hshort]
  by_cases hover : codec.limit < Bytes.word buffer 3
  · rw [if_pos hover, if_pos hover]
  rw [if_neg hover, if_neg hover]
  by_cases hpart : buffer.length < Bytes.word buffer 3 + Frame.overhead
  · rw [if_pos hpart, if_pos hpart]
  rw [if_neg hpart, if_neg hpart]
  have hten : 10 ≤ (buffer.drop (11 + Bytes.word buffer 3)).length := by
    simp only [List.length_drop, Frame.overhead] at *
    omega
  have hwidth : Bytes.word buffer 3 + Frame.overhead < 256 ^ 8 := by
    simp only [UInt32.size, Frame.overhead] at *
    omega
  have hpair : 11 + Bytes.word buffer 3 + 8 = 19 + Bytes.word buffer 3 := by omega
  have hrest : 11 + Bytes.word buffer 3 + 10 = Bytes.word buffer 3 + Frame.overhead := by
    simp only [Frame.overhead]
    omega
  have hending := Bytes.ten_eq_iff hten hwidth [0x0D, 0x0A]
  rw [Bytes.word_drop, Bytes.pair_drop, Nat.add_zero, hpair] at hending
  simp only [List.drop_drop, beq_iff_eq, hending, hrest]

/-! ### Envelopes -/

/-- The parts of an envelope at the front of a buffer. -/
theorem parts_envelope (frame : Frame) (rest : List UInt8)
    (hsize : frame.payload.length ≤ UInt32.size - 1) :
    let buffer := frame.envelope ++ rest
    let size := frame.payload.length
    buffer.length = size + Frame.overhead + rest.length ∧
      Bytes.word buffer 3 = size ∧ Bytes.word buffer (11 + size) = size + Frame.overhead ∧
      Bytes.pair buffer (19 + size) = [0x0D, 0x0A] ∧ buffer.getD 2 0 = frame.type ∧
      (buffer.drop 11).take size = frame.payload ∧ buffer.drop (size + Frame.overhead) = rest := by
  intro buffer size
  have hwidth : size + Frame.overhead < 256 ^ 8 := by
    simp only [UInt32.size, Frame.overhead, size] at *
    omega
  have hbody : buffer.drop 11 =
      frame.payload ++ (Bytes.ofNat 8 (size + Frame.overhead) ++ ([0x0D, 0x0A] ++ rest)) := by
    simp [buffer, Frame.envelope, Frame.wireSize, size]
  have hsum : buffer.drop (11 + size) =
      Bytes.ofNat 8 (size + Frame.overhead) ++ ([0x0D, 0x0A] ++ rest) := by
    rw [← List.drop_drop, hbody, List.drop_left]
  have hmark : buffer.drop (19 + size) = [0x0D, 0x0A] ++ rest := by
    rw [show 19 + size = 11 + size + 8 by omega, ← List.drop_drop, hsum,
      List.drop_left' (Bytes.length_ofNat _ _)]
  refine ⟨?_, ?_, ?_, ?_, ?_, ?_, ?_⟩
  · simp only [buffer, size, Frame.envelope, Frame.overhead, List.length_append,
      Bytes.length_ofNat, List.length_cons, List.length_nil]
    omega
  · have hlength : (buffer.drop 3).take 8 = Bytes.ofNat 8 size := by
      simp [buffer, Frame.envelope, size]
    rw [Bytes.word, hlength, Bytes.toNat_ofNat (by omega)]
  · rw [Bytes.word, hsum, List.take_left' (Bytes.length_ofNat _ _), Bytes.toNat_ofNat hwidth]
  · rw [Bytes.pair, hmark]
    rfl
  · rfl
  · rw [hbody, List.take_left]
  · rw [show size + Frame.overhead = 19 + size + 2 by simp only [Frame.overhead]; omega,
      ← List.drop_drop, hmark]
    rfl

/-- An envelope whose payload is within the limit is found, whatever follows it. -/
theorem inspect_envelope (codec : Codec) (frame : Frame) (rest : List UInt8)
    (hsize : frame.payload.length ≤ codec.limit) :
    codec.inspect (frame.envelope ++ rest) = .found frame rest := by
  obtain ⟨hlength, hsum, hcheck, hmark, htype, hbody, hrest⟩ :=
    parts_envelope frame rest (hsize.trans codec.limit_le)
  have hfront : codec.inspect (frame.envelope ++ rest) =
      codec.inspectEnvelope (frame.envelope ++ rest) := by
    simp [inspect, Frame.envelope]
  rw [hfront, inspectEnvelope_eq, hsum, if_neg (by omega), if_neg (by omega), if_neg (by omega),
    if_pos ⟨hcheck, hmark⟩, htype, hbody, hrest]

/-- What is found is an envelope whose payload is within the limit. -/
theorem eq_envelope_of_inspectEnvelope {codec : Codec} {buffer rest : List UInt8} {frame : Frame}
    (hmark : buffer.take 2 = [0xFF, 0xFF])
    (h : codec.inspectEnvelope buffer = .found frame rest) :
    buffer = frame.envelope ++ rest ∧ frame.payload.length ≤ codec.limit := by
  have hlimit := codec.limit_le
  rw [inspectEnvelope_eq] at h
  split_ifs at h with hshort hover hpart hending
  obtain ⟨rfl, rfl⟩ := Sighting.found.inj h
  obtain ⟨hcheck, htrailer⟩ := hending
  simp only [Frame.overhead, UInt32.size] at hshort hpart hlimit hcheck
  generalize hsize : Bytes.word buffer 3 = size at *
  have hpayload : ((buffer.drop 11).take size).length = size := by
    rw [List.length_take, List.length_drop]
    omega
  have hlength : (buffer.drop 3).take 8 = Bytes.ofNat 8 size := by
    rw [Bytes.eq_ofNat_iff (by rw [List.length_take, List.length_drop]; omega) (by omega)]
    exact hsize
  have hsum : (buffer.drop (11 + size)).take 8 = Bytes.ofNat 8 (size + 21) := by
    rw [Bytes.eq_ofNat_iff (by rw [List.length_take, List.length_drop]; omega) (by omega)]
    exact hcheck
  have htrailer' : (buffer.drop (11 + size + 8)).take 2 = [0x0D, 0x0A] := by
    rw [show 11 + size + 8 = 19 + size by omega]
    exact htrailer
  have htype : (buffer.drop 2).take 1 = [buffer.getD 2 0] := by
    have hthird : 2 < buffer.length := by omega
    rw [List.drop_eq_getElem_cons hthird, List.getD_eq_getElem?_getD,
      List.getElem?_eq_getElem hthird]
    rfl
  have hcut (start count : Nat) :
      buffer.drop start = (buffer.drop start).take count ++ buffer.drop (start + count) := by
    rw [← List.drop_drop, List.take_append_drop]
  generalize hbody : (buffer.drop 11).take size = payload at *
  refine ⟨?_, by simp only [hpayload]; omega⟩
  calc buffer = buffer.take 2 ++ buffer.drop 2 := (List.take_append_drop 2 buffer).symm
    _ = [0xFF, 0xFF] ++ ([buffer.getD 2 0] ++ (Bytes.ofNat 8 size ++
          (payload ++ (Bytes.ofNat 8 (size + 21) ++
            ([0x0D, 0x0A] ++ buffer.drop (size + 21)))))) := by
      rw [hmark, hcut 2 1, htype, hcut 3 8, hlength, hcut 11 size, hbody, hcut (11 + size) 8, hsum,
        hcut (11 + size + 8) 2, htrailer', show 11 + size + 8 + 2 = size + 21 by omega]
    _ = _ := by simp [Frame.envelope, Frame.wireSize, hpayload, Frame.overhead]

/-- Exactly envelopes whose payload is within the limit are found. -/
theorem inspect_eq_found_iff {codec : Codec} {buffer rest : List UInt8} {frame : Frame} :
    codec.inspect buffer = .found frame rest ↔
      buffer = frame.envelope ++ rest ∧ frame.payload.length ≤ codec.limit := by
  constructor
  · intro h
    match buffer with
    | [] => simp [inspect] at h
    | [a] =>
      simp only [inspect] at h
      split_ifs at h
    | a :: b :: tail =>
      simp only [inspect] at h
      split_ifs at h with hmark
      obtain ⟨rfl, rfl⟩ := hmark
      exact eq_envelope_of_inspectEnvelope rfl h
  · rintro ⟨rfl, hsize⟩
    exact codec.inspect_envelope frame rest hsize

/-! ### Refuted positions -/

/-- No envelope starts at a position: it holds a last byte that is not FF or two bytes that are not
the mark, the length after them is over the limit, or an envelope of that length has a wrong
ending. -/
def Refuted (codec : Codec) (buffer : List UInt8) (p : Nat) : Prop :=
  (p + 1 = buffer.length ∧ buffer[p]? ≠ some 0xFF) ∨
  (p + 2 ≤ buffer.length ∧ Bytes.pair buffer p ≠ [0xFF, 0xFF]) ∨
  (p + Frame.overhead ≤ buffer.length ∧ codec.limit < Bytes.word buffer (p + 3)) ∨
  (Bytes.word buffer (p + 3) ≤ codec.limit ∧
    p + Bytes.word buffer (p + 3) + Frame.overhead ≤ buffer.length ∧
    (Bytes.word buffer (p + 11 + Bytes.word buffer (p + 3)) ≠
        Bytes.word buffer (p + 3) + Frame.overhead ∨
      Bytes.pair buffer (p + 19 + Bytes.word buffer (p + 3)) ≠ [0x0D, 0x0A]))

instance (codec : Codec) (buffer : List UInt8) (p : Nat) : Decidable (codec.Refuted buffer p) :=
  inferInstanceAs (Decidable (_ ∨ _ ∨ _ ∨ _))

/-- Dropping bytes moves every refuted position towards the front. -/
theorem refuted_drop {codec : Codec} {buffer : List UInt8} {count p : Nat} :
    codec.Refuted (buffer.drop count) p ↔ codec.Refuted buffer (count + p) := by
  simp only [Refuted, List.length_drop, List.getElem?_drop, Bytes.pair_drop, Bytes.word_drop,
    Frame.overhead, ← Nat.add_assoc]
  have hlast : p + 1 = buffer.length - count ↔ count + p + 1 = buffer.length := by omega
  have hpair : p + 2 ≤ buffer.length - count ↔ count + p + 2 ≤ buffer.length := by omega
  have hhead : p + 21 ≤ buffer.length - count ↔ count + p + 21 ≤ buffer.length := by omega
  have hwhole (size : Nat) :
      p + size + 21 ≤ buffer.length - count ↔ count + p + size + 21 ≤ buffer.length := by
    omega
  rw [hlast, hpair, hhead, hwhole]

/-- A refuted position lies in the buffer. -/
theorem Refuted.lt_length {codec : Codec} {buffer : List UInt8} {p : Nat}
    (h : codec.Refuted buffer p) : p < buffer.length := by
  have hoverhead : Frame.overhead = 21 := rfl
  rcases h with ⟨h, -⟩ | ⟨h, -⟩ | ⟨h, -⟩ | ⟨-, h, -⟩ <;> omega

/-- Behind the mark, noise is a length over the limit or a wrong ending. -/
theorem inspectEnvelope_eq_noise_iff {codec : Codec} {buffer : List UInt8} :
    codec.inspectEnvelope buffer = .noise ↔
      (Frame.overhead ≤ buffer.length ∧ codec.limit < Bytes.word buffer 3) ∨
      (Bytes.word buffer 3 ≤ codec.limit ∧
        Bytes.word buffer 3 + Frame.overhead ≤ buffer.length ∧
        (Bytes.word buffer (11 + Bytes.word buffer 3) ≠ Bytes.word buffer 3 + Frame.overhead ∨
          Bytes.pair buffer (19 + Bytes.word buffer 3) ≠ [0x0D, 0x0A])) := by
  rw [inspectEnvelope_eq]
  split_ifs with hshort hover hpart hending
  · simp only [false_iff]
    omega
  · simp only [true_iff]
    exact Or.inl ⟨by omega, hover⟩
  · simp only [false_iff]
    omega
  · simp only [false_iff, hending, ne_eq, not_true_eq_false, or_self, and_false,
      or_false]
    omega
  · simp only [true_iff]
    refine Or.inr ⟨by omega, by omega, ?_⟩
    by_contra h
    push Not at h
    exact hending h

/-- The front is noise exactly when its position is refuted. -/
theorem inspect_eq_noise_iff {codec : Codec} {buffer : List UInt8} :
    codec.inspect buffer = .noise ↔ codec.Refuted buffer 0 := by
  match buffer with
  | [] => simp [inspect, Refuted]
  | [a] =>
    have hoverhead : Frame.overhead = 21 := rfl
    have hrefuted : codec.Refuted [a] 0 ↔ a ≠ 0xFF := by
      constructor
      · rintro (⟨-, h⟩ | ⟨h, -⟩ | ⟨h, -⟩ | ⟨-, h, -⟩)
        · simpa using h
        all_goals simp only [List.length_singleton] at h; omega
      · intro ha
        exact Or.inl ⟨rfl, by simpa using ha⟩
    simp [inspect, hrefuted]
  | a :: b :: tail =>
    by_cases hmark : a = 0xFF ∧ b = 0xFF
    · obtain ⟨rfl, rfl⟩ := hmark
      simp only [inspect, and_self, if_true, inspectEnvelope_eq_noise_iff, Refuted]
      simp [Bytes.pair]
    · simp [inspect, Refuted, Bytes.pair, hmark]

/-! ### More bytes -/

/-- A refuted position stays refuted when more bytes arrive. -/
theorem Refuted.append {codec : Codec} {buffer : List UInt8} {p : Nat}
    (h : codec.Refuted buffer p) (more : List UInt8) : codec.Refuted (buffer ++ more) p := by
  have hoverhead : Frame.overhead = 21 := rfl
  have hlength : (buffer ++ more).length = buffer.length + more.length := List.length_append
  rcases h with ⟨hlast, hbyte⟩ | ⟨hp, hpair⟩ | ⟨hp, hover⟩ | ⟨hsize, hp, hending⟩
  · -- The last byte is not FF: what arrives makes it the first byte of a pair that is no mark.
    have hkept : (buffer ++ more)[p]? = buffer[p]? := List.getElem?_append_left (by omega)
    by_cases hmore : more.length = 0
    · exact Or.inl ⟨by omega, hkept ▸ hbyte⟩
    · refine Or.inr (Or.inl ⟨by omega, fun hmark => hbyte ?_⟩)
      have hfirst := congrArg (fun pair : List UInt8 => pair[0]?) hmark
      simpa [Bytes.pair, hkept] using hfirst
  · refine Or.inr (Or.inl ⟨by omega, ?_⟩)
    rwa [Bytes.pair_append more hp]
  · refine Or.inr (Or.inr (Or.inl ⟨by omega, ?_⟩))
    rwa [Bytes.word_append more (by omega)]
  · refine Or.inr (Or.inr (Or.inr ?_))
    rw [Bytes.word_append more (by omega), Bytes.word_append more (by omega),
      Bytes.pair_append more (by omega)]
    exact ⟨hsize, by omega, hending⟩

/-- A frame that was found is found with what arrives later behind it. -/
theorem inspect_append_found {codec : Codec} {buffer rest : List UInt8} {frame : Frame}
    (h : codec.inspect buffer = .found frame rest) (more : List UInt8) :
    codec.inspect (buffer ++ more) = .found frame (rest ++ more) := by
  obtain ⟨hbuffer, hsize⟩ := inspect_eq_found_iff.mp h
  exact inspect_eq_found_iff.mpr ⟨by rw [hbuffer, List.append_assoc], hsize⟩

end Codec

end BeeProtocol
