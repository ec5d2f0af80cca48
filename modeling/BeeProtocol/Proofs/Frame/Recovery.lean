import BeeProtocol.Proofs.Frame.CheckedReads
import BeeProtocol.Proofs.Frame.Chunks

/-!
# Recovery after garbage

Garbage in front of good frames can look like an envelope that reaches into them, and what it covers
is lost. But no such envelope is longer than the limit allows, and inside a good frame nothing looks
like another mark. So every frame that starts far enough behind the garbage comes out again, and
what is kept in the buffer when nothing comes out is always shorter than the longest envelope.
-/

namespace BeeProtocol

namespace Frame

/-- The envelopes of some frames, one behind another. -/
def envelopes (frames : List Frame) : List UInt8 :=
  frames.flatMap envelope

/-- The mark occurs in the envelope at its front only. -/
def IsMarkedOnce (frame : Frame) : Prop :=
  ∀ i < frame.wireSize, Bytes.pair frame.envelope i = [0xFF, 0xFF] → i = 0

instance (frame : Frame) : Decidable frame.IsMarkedOnce :=
  inferInstanceAs (Decidable (∀ i < frame.wireSize, _ → _))

/-- The frames whose envelopes start at the offset `bound` or behind it, if the first one starts at
the offset `start` and each of the others where the one before it ends. -/
def startingFrom (bound : Nat) : Nat → List Frame → List Frame
  | _, [] => []
  | start, frame :: frames =>
    if bound ≤ start then frame :: startingFrom bound (start + frame.wireSize) frames
    else startingFrom bound (start + frame.wireSize) frames

/-! ### Envelopes one behind another -/

/-- An envelope has the size of its frame on the wire. -/
theorem length_envelope (frame : Frame) : frame.envelope.length = frame.wireSize := by
  simp only [envelope, wireSize, overhead, List.length_append, Bytes.length_ofNat,
    List.length_cons, List.length_nil]
  omega

/-- An envelope ends with the byte 0A. -/
theorem envelope_getLast (frame : Frame) :
    frame.envelope[frame.wireSize - 1]? = some 0x0A := by
  rw [← length_envelope, ← List.getLast?_eq_getElem?, envelope, List.getLast?_append]
  rfl

/-- The first envelope and the others. -/
theorem envelopes_cons (frame : Frame) (frames : List Frame) :
    envelopes (frame :: frames) = frame.envelope ++ envelopes frames :=
  List.flatMap_cons

/-! ### Frames from an offset on -/

/-- If the first frame is far enough behind, all are. -/
theorem startingFrom_of_le {bound start : Nat} (h : bound ≤ start) (frames : List Frame) :
    startingFrom bound start frames = frames := by
  induction frames generalizing start with
  | nil => rfl
  | cons frame frames ih => rw [startingFrom, if_pos h, ih (by omega)]

/-- Only the distance between the bound and the start matters. -/
theorem startingFrom_add (bound start count : Nat) (frames : List Frame) :
    startingFrom (bound + count) (start + count) frames = startingFrom bound start frames := by
  induction frames generalizing start with
  | nil => rfl
  | cons frame frames ih =>
    have hnext : start + count + frame.wireSize = start + frame.wireSize + count := by omega
    simp only [startingFrom, Nat.add_le_add_iff_right, hnext, ih]

/-- The frames from an offset on are the last ones of the list. -/
theorem startingFrom_suffix (bound start : Nat) (frames : List Frame) :
    startingFrom bound start frames <:+ frames := by
  induction frames generalizing start with
  | nil => exact List.suffix_refl _
  | cons frame frames ih =>
    by_cases h : bound ≤ start
    · refine ⟨[], ?_⟩
      rw [List.nil_append, startingFrom_of_le h]
    · rw [startingFrom, if_neg h]
      exact (ih _).trans (List.suffix_cons _ _)

/-- A larger offset leaves an end of the frames that a smaller one leaves. -/
theorem startingFrom_suffix_of_le {bound bound' : Nat} (h : bound ≤ bound') (start : Nat)
    (frames : List Frame) :
    startingFrom bound' start frames <:+ startingFrom bound start frames := by
  induction frames generalizing start with
  | nil => exact List.suffix_refl _
  | cons frame frames ih =>
    by_cases hstart : bound ≤ start
    · rw [startingFrom_of_le hstart]
      exact startingFrom_suffix _ _ _
    · rw [startingFrom, startingFrom, if_neg hstart, if_neg (by omega)]
      exact ih _

/-- A frame that starts at an offset or behind it needs bytes up to there and for itself. -/
theorem length_of_startingFrom {bound start : Nat} {frames : List Frame}
    (h : startingFrom bound start frames ≠ []) :
    bound + overhead ≤ start + (envelopes frames).length := by
  induction frames generalizing start with
  | nil => exact absurd rfl h
  | cons frame frames ih =>
    rw [envelopes_cons, List.length_append, length_envelope, wireSize]
    by_cases hstart : bound ≤ start
    · omega
    · rw [startingFrom, if_neg hstart] at h
      have hmore := ih h
      rw [wireSize] at hmore
      omega

end Frame

namespace Codec

variable {codec : Codec}

/-! ### Decoding good frames -/

/-- Buffers that give the same frame and leave the same bytes give the same frames. -/
theorem decodeAll_congr {buffer buffer' : List UInt8}
    (h : codec.decode buffer = codec.decode buffer') :
    codec.decodeAll buffer = codec.decodeAll buffer' := by
  cases hdecode : codec.decode buffer' with
  | mk frame rest =>
    rw [hdecode] at h
    cases frame with
    | none => rw [decodeAll_of_none h, decodeAll_of_none hdecode]
    | some frame => rw [decodeAll_of_some h, decodeAll_of_some hdecode]

/-- Behind refuted positions, decoding goes on as if they were not there. -/
theorem decodeAll_drop {buffer : List UInt8} {count : Nat}
    (h : ∀ i < count, codec.Refuted buffer i) (hmore : 1 < (buffer.drop count).length) :
    codec.decodeAll buffer = codec.decodeAll (buffer.drop count) := by
  have hlength : (buffer.drop count).length ≤ buffer.length := by rw [List.length_drop]; omega
  apply decodeAll_congr
  rw [decode_eq_seek codec (by omega), decode_eq_seek codec (by omega), seek_drop h]

/-- An envelope at the front is taken out, whatever follows it. -/
theorem decode_envelope {frame : Frame} (hsize : frame.payload.length ≤ codec.limit)
    (rest : List UInt8) : codec.decode (frame.envelope ++ rest) = (some frame, rest) := by
  have hlength := frame.length_envelope
  have hone : (frame.envelope ++ rest).length ≠ 1 := by
    rw [List.length_append, hlength, Frame.wireSize, Frame.overhead]
    omega
  rw [decode_eq_seek codec hone, seek.eq_def, codec.inspect_envelope frame rest hsize]

/-- The frames of a stream of envelopes come out, and no byte is left. -/
theorem decodeAll_envelopes {frames : List Frame}
    (hsize : ∀ frame ∈ frames, frame.payload.length ≤ codec.limit) :
    codec.decodeAll (Frame.envelopes frames) = (frames, []) := by
  induction frames with
  | nil => rfl
  | cons frame frames ih =>
    rw [List.forall_mem_cons] at hsize
    rw [Frame.envelopes_cons, decodeAll_of_some (decode_envelope hsize.1 _), ih hsize.2]

/-! ### Entering good frames in the middle -/

/-- No envelope starts behind the first byte of an envelope in which the mark occurs once. -/
theorem refuted_of_isMarkedOnce {frame : Frame} (honce : frame.IsMarkedOnce)
    {i : Nat} (hpos : 0 < i) (hi : i < frame.wireSize) (rest : List UInt8) :
    codec.Refuted (frame.envelope ++ rest) i := by
  have hlength := frame.length_envelope
  by_cases hlast : i + 1 = frame.wireSize
  · apply refuted_of_no_mark (by rw [List.length_append]; omega)
    rintro ⟨hbyte, -⟩
    have hend := frame.envelope_getLast
    rw [show frame.wireSize - 1 = i by omega] at hend
    rw [List.getElem?_append_left (by omega), hend] at hbyte
    exact absurd hbyte (by decide)
  · refine Or.inr (Or.inl ⟨by rw [List.length_append]; omega, ?_⟩)
    rw [Bytes.pair_append rest (by omega)]
    intro hmark
    have hfront := honce i hi hmark
    omega

/-- Decoding that starts somewhere in good frames gives those that start there or behind, if there
are any. -/
theorem decodeAll_drop_envelopes {frames : List Frame} {count : Nat}
    (hsize : ∀ frame ∈ frames, frame.payload.length ≤ codec.limit)
    (honce : ∀ frame ∈ frames, frame.IsMarkedOnce)
    (hlate : Frame.startingFrom count 0 frames ≠ []) :
    codec.decodeAll ((Frame.envelopes frames).drop count) =
      (Frame.startingFrom count 0 frames, []) := by
  induction frames generalizing count with
  | nil => exact absurd rfl hlate
  | cons frame frames ih =>
    by_cases hzero : count = 0
    · subst hzero
      rw [List.drop_zero, Frame.startingFrom_of_le le_rfl, decodeAll_envelopes hsize]
    have hbefore : ¬ count ≤ 0 := by omega
    rw [Frame.startingFrom, if_neg hbefore, Nat.zero_add] at hlate ⊢
    rw [List.forall_mem_cons] at hsize honce
    have hlength := frame.length_envelope
    by_cases hwithin : count ≤ frame.wireSize
    · -- What is left of the first envelope holds no mark.
      rw [Frame.startingFrom_of_le hwithin] at hlate ⊢
      have hrefuted : ∀ i < frame.wireSize - count,
          codec.Refuted ((Frame.envelopes (frame :: frames)).drop count) i := by
        intro i hi
        rw [refuted_drop, Frame.envelopes_cons]
        exact refuted_of_isMarkedOnce honce.1 (by omega) (by omega) _
      have hbehind : ((Frame.envelopes (frame :: frames)).drop count).drop
          (frame.wireSize - count) = Frame.envelopes frames := by
        rw [List.drop_drop, Nat.add_sub_cancel' hwithin, Frame.envelopes_cons,
          List.drop_left' hlength]
      have hmore : 1 < (Frame.envelopes frames).length := by
        have hfirst := Frame.startingFrom_of_le (Nat.le_refl 0) frames
        have hroom := Frame.length_of_startingFrom (hfirst.symm ▸ hlate)
        simp only [Frame.overhead] at hroom
        omega
      rw [decodeAll_drop hrefuted (by rwa [hbehind]), hbehind, decodeAll_envelopes hsize.2]
    · have hshift := Frame.startingFrom_add (count - frame.wireSize) 0 frame.wireSize frames
      rw [Nat.sub_add_cancel (by omega), Nat.zero_add] at hshift
      rw [hshift] at hlate ⊢
      rw [Frame.envelopes_cons, List.drop_append, List.drop_eq_nil_of_le (by omega), hlength,
        List.nil_append, ih hsize.2 honce.2 hlate]

/-- Wherever decoding starts in the bytes that the longest envelope can reach, all frames behind
them come out. -/
theorem decodeAll_drop_of_le {frames : List Frame} {count : Nat}
    (hsize : ∀ frame ∈ frames, frame.payload.length ≤ codec.limit)
    (honce : ∀ frame ∈ frames, frame.IsMarkedOnce) (hcount : count ≤ codec.limit + 20)
    (hlate : Frame.startingFrom (codec.limit + 20) 0 frames ≠ []) :
    Frame.startingFrom (codec.limit + 20) 0 frames <:+
        (codec.decodeAll ((Frame.envelopes frames).drop count)).1 ∧
      (codec.decodeAll ((Frame.envelopes frames).drop count)).2 = [] := by
  have hsuffix := Frame.startingFrom_suffix_of_le hcount 0 frames
  have hsome : Frame.startingFrom count 0 frames ≠ [] := by
    intro hnone
    rw [hnone] at hsuffix
    exact hlate (List.suffix_nil.mp hsuffix)
  rw [decodeAll_drop_envelopes hsize honce hsome]
  exact ⟨hsuffix, rfl⟩

/-! ### Garbage in front -/

/-- A buffer that holds as many bytes as the longest envelope is decided at its front. -/
theorem length_of_undecided {buffer : List UInt8} (h : codec.inspect buffer = .undecided) :
    buffer.length < codec.limit + Frame.overhead := by
  by_cases hmark : buffer.take 2 = [0xFF, 0xFF]
  · rw [inspect_of_mark hmark, inspectEnvelope_eq] at h
    split_ifs at h with hshort hover hpart
    · omega
    · omega
  · match buffer with
    | [] => exact Nat.lt_add_left _ (by decide)
    | [a] => exact Nat.lt_add_left _ (by rw [List.length_singleton]; decide)
    | a :: b :: tail =>
      have hnot : ¬ (a = 0xFF ∧ b = 0xFF) := by
        rintro ⟨rfl, rfl⟩
        exact hmark rfl
      simp [inspect, hnot] at h

/-- Behind any garbage, all frames come out again that start at the longest envelope's last byte or
behind it, counted from the garbage's last byte, and no byte is left then. -/
theorem decodeAll_garbage {frames : List Frame} (garbage : List UInt8)
    (hsize : ∀ frame ∈ frames, frame.payload.length ≤ codec.limit)
    (honce : ∀ frame ∈ frames, frame.IsMarkedOnce)
    (hlate : Frame.startingFrom (codec.limit + 20) 0 frames ≠ []) :
    Frame.startingFrom (codec.limit + 20) 0 frames <:+
        (codec.decodeAll (garbage ++ Frame.envelopes frames)).1 ∧
      (codec.decodeAll (garbage ++ Frame.envelopes frames)).2 = [] := by
  have hroom := Frame.length_of_startingFrom hlate
  have hoverhead : Frame.overhead = 21 := rfl
  induction hlength : garbage.length using Nat.strongRecOn generalizing garbage with
  | ind n ih =>
    subst hlength
    match garbage with
    | [] =>
      rw [List.nil_append, decodeAll_envelopes hsize]
      exact ⟨Frame.startingFrom_suffix _ _ _, rfl⟩
    | a :: garbage =>
      have hbuffer : (a :: garbage ++ Frame.envelopes frames).length =
          garbage.length + 1 + (Frame.envelopes frames).length := by
        rw [List.length_append, List.length_cons]
      have hone : (a :: garbage ++ Frame.envelopes frames).length ≠ 1 := by omega
      cases hsight : codec.inspect (a :: garbage ++ Frame.envelopes frames) with
      | undecided =>
        have hshort := length_of_undecided hsight
        omega
      | noise =>
        have hrefuted : ∀ i < 1, codec.Refuted (a :: garbage ++ Frame.envelopes frames) i := by
          intro i hi
          rw [show i = 0 by omega]
          exact inspect_eq_noise_iff.mp hsight
        have hdrop : (a :: garbage ++ Frame.envelopes frames).drop 1 =
            garbage ++ Frame.envelopes frames := rfl
        have hmore : 1 < (garbage ++ Frame.envelopes frames).length := by
          rw [List.length_append]
          omega
        rw [decodeAll_drop hrefuted (by rwa [hdrop]), hdrop]
        exact ih garbage.length (by simp) garbage rfl
      | found frame rest =>
        obtain ⟨henvelope, hpayload⟩ := inspect_eq_found_iff.mp hsight
        have hdecode := decode_envelope hpayload rest
        rw [← henvelope] at hdecode
        rw [decodeAll_of_some hdecode]
        have hrest : rest = (a :: garbage ++ Frame.envelopes frames).drop frame.wireSize := by
          rw [henvelope, List.drop_left' frame.length_envelope]
        have hwire : 0 < frame.wireSize ∧ frame.wireSize ≤ codec.limit + 21 := by
          rw [Frame.wireSize]
          omega
        rw [List.drop_append, List.length_cons] at hrest
        by_cases hwithin : frame.wireSize ≤ garbage.length + 1
        · rw [show frame.wireSize - (garbage.length + 1) = 0 by omega, List.drop_zero] at hrest
          have hless := ih ((a :: garbage).drop frame.wireSize).length
            (by rw [List.length_drop, List.length_cons]; omega) _ rfl
          rw [← hrest] at hless
          exact ⟨hless.1.trans (List.suffix_cons _ _), hless.2⟩
        · -- The envelope covers the rest of the garbage and reaches into the good frames.
          rw [List.drop_eq_nil_of_le (by rw [List.length_cons]; omega), List.nil_append] at hrest
          obtain ⟨hsuffix, hempty⟩ := decodeAll_drop_of_le hsize honce
            (show frame.wireSize - (garbage.length + 1) ≤ codec.limit + 20 by omega) hlate
          rw [hrest]
          exact ⟨hsuffix.trans (List.suffix_cons _ _), hempty⟩

/-- The buffer that is left without a frame is shorter than the longest envelope. -/
theorem length_of_decode_eq_none {buffer rest : List UInt8}
    (h : codec.decode buffer = (none, rest)) : rest.length < codec.limit + Frame.overhead := by
  by_cases hone : buffer.length = 1
  · have hsuffix := (decode_suffix h).1.length_le
    exact Nat.lt_add_left _ (by rw [Frame.overhead]; omega)
  · rw [decode_eq_seek codec hone] at h
    obtain ⟨p, hfront⟩ := codec.exists_isFront buffer
    rw [seek_eq_of_isFront hfront] at h
    cases hsight : codec.inspect (buffer.drop p) with
    | undecided =>
      simp only [hsight, Prod.mk.injEq, true_and] at h
      rw [← h]
      exact length_of_undecided hsight
    | noise =>
      have hrefuted := inspect_eq_noise_iff.mp hsight
      rw [refuted_drop, Nat.add_zero] at hrefuted
      exact absurd hrefuted (hfront.not_refuted hrefuted.lt_length)
    | found frame rest => simp [hsight] at h

/-- Behind garbage `garbage`, good frames whose envelopes start at the offset
`garbage.length + codec.limit + 20` or later come out as the last ones, and the buffer is left empty
if there are any. Without a frame, the buffer is left with less than the longest envelope. -/
theorem recovery (codec : Codec) (garbage : List UInt8) (frames : List Frame)
    (hsize : ∀ frame ∈ frames, frame.payload.length ≤ codec.limit)
    (honce : ∀ frame ∈ frames, frame.IsMarkedOnce) :
    let late := Frame.startingFrom (garbage.length + codec.limit + 20) garbage.length frames
    let decoded := codec.decodeAll (garbage ++ Frame.envelopes frames)
    late <:+ decoded.1 ∧ (late ≠ [] → decoded.2 = []) ∧
      ∀ buffer rest, codec.decode buffer = (none, rest) → rest.length < codec.limit + 21 := by
  intro late decoded
  have hshift : late = Frame.startingFrom (codec.limit + 20) 0 frames := by
    have hadd := Frame.startingFrom_add (codec.limit + 20) 0 garbage.length frames
    rw [Nat.zero_add] at hadd
    rw [← hadd, show codec.limit + 20 + garbage.length = garbage.length + codec.limit + 20 by omega]
  have hrecovered (hlate : late ≠ []) : late <:+ decoded.1 ∧ decoded.2 = [] := by
    rw [hshift] at hlate ⊢
    exact decodeAll_garbage garbage hsize honce hlate
  refine ⟨?_, fun hlate => (hrecovered hlate).2, fun _ _ => length_of_decode_eq_none⟩
  by_cases hlate : late = []
  · rw [hlate]
    exact List.nil_suffix
  · exact (hrecovered hlate).1

/-- Garbage that looks like the longest envelope swallows the first frame's payload. The second
frame, which starts at the first offset that is safe, comes out behind the false one. -/
theorem recovery_swallowed :
    let codec := Codec.withLimit 11
    let garbage : List UInt8 := [0xFF, 0xFF, 5, 0, 0, 0, 0, 0, 0, 0, 11]
    let covered : Frame := ⟨3, [0, 0, 0, 0, 0, 0, 0, 32, 0x0D, 0x0A]⟩
    let late := Frame.startingFrom (garbage.length + codec.limit + 20) garbage.length
      [covered, ⟨6, []⟩]
    late = [⟨6, []⟩] ∧
      late <:+ (codec.decodeAll (garbage ++ Frame.envelopes [covered, ⟨6, []⟩])).1 ∧
      covered ∉ (codec.decodeAll (garbage ++ Frame.envelopes [covered, ⟨6, []⟩])).1 := by
  intro codec garbage covered late
  have hrecovery := recovery codec garbage [covered, ⟨6, []⟩] (by decide) (by decide)
  exact ⟨by decide, hrecovery.1, by decide⟩

end Codec

end BeeProtocol
