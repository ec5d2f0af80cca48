import BeeProtocol.Proofs.Frame.Scanning

/-!
# Streams in chunks

A stream arrives in chunks, and after each chunk all frames are taken out of the buffer. Which
frames come out is a matter of the stream alone, however it is cut. What is left in the buffer may
differ in one way: a single byte that cannot start an envelope is kept if it is all there is and
dropped if it comes behind others.
-/

namespace BeeProtocol.Codec

/-- Appends the chunks one after another and takes out all frames after each of them. -/
def feedAll (codec : Codec) : List UInt8 → List (List UInt8) → List Frame × List UInt8
  | buffer, [] => ([], buffer)
  | buffer, chunk :: chunks =>
    let (frames, rest) := codec.decodeAll (buffer ++ chunk)
    let (more, rest) := codec.feedAll rest chunks
    (frames ++ more, rest)

/-! ### Seeking in a longer buffer -/

/-- What seeking keeps when it finds nothing is all that matters for what follows. -/
theorem seek_append_of_none {codec : Codec} {buffer rest : List UInt8}
    (h : codec.seek buffer = (none, rest)) (more : List UInt8) :
    codec.seek (buffer ++ more) = codec.seek (rest ++ more) := by
  obtain ⟨p, hfront⟩ := codec.exists_isFront buffer
  have hrest : rest = buffer.drop p := by
    have hnone : ¬ ∃ frame rest, codec.EnvelopeAt buffer p frame rest := by
      rintro ⟨frame, rest', henvelope⟩
      rw [(seek_eq_some_iff hfront).mpr henvelope] at h
      simp at h
    rw [seek_of_no_envelope hfront hnone] at h
    exact (Prod.mk.inj h).2.symm
  rw [seek_drop fun i hi => (hfront.refuted_before i hi).append more,
    List.drop_append_of_le_length hfront.le_length, hrest]

/-- A frame that is found is found in front of whatever follows. -/
theorem seek_append_of_some {codec : Codec} {buffer rest : List UInt8} {frame : Frame}
    (h : codec.seek buffer = (some frame, rest)) (more : List UInt8) :
    codec.seek (buffer ++ more) = (some frame, rest ++ more) := by
  obtain ⟨p, hfront⟩ := codec.exists_isFront buffer
  have hsight := inspect_eq_found_iff.mpr ((seek_eq_some_iff hfront).mp h).symm
  have hrefuted : ∀ i < p, codec.Refuted (buffer ++ more) i := by
    intro i hi
    exact (hfront.refuted_before i hi).append more
  rw [seek_drop hrefuted, List.drop_append_of_le_length hfront.le_length, seek.eq_def,
    inspect_append_found hsight]

/-- Seeking keeps an end of the buffer, and a frame that it takes out has some length. -/
theorem seek_suffix {codec : Codec} {buffer rest : List UInt8} {frame : Option Frame}
    (h : codec.seek buffer = (frame, rest)) :
    rest <:+ buffer ∧ (frame.isSome → rest.length < buffer.length) := by
  obtain ⟨p, hfront⟩ := codec.exists_isFront buffer
  have hdrop : buffer.drop p <:+ buffer := List.drop_suffix p buffer
  rw [seek_eq_of_isFront hfront] at h
  cases hsight : codec.inspect (buffer.drop p) with
  | undecided =>
    simp only [hsight, Prod.mk.injEq] at h
    obtain ⟨rfl, rfl⟩ := h
    exact ⟨hdrop, by simp⟩
  | noise =>
    simp only [hsight, Prod.mk.injEq] at h
    obtain ⟨rfl, rfl⟩ := h
    exact ⟨hdrop, by simp⟩
  | found found behind =>
    simp only [hsight, Prod.mk.injEq] at h
    obtain ⟨rfl, rfl⟩ := h
    obtain ⟨henvelope, -⟩ := inspect_eq_found_iff.mp hsight
    rw [henvelope] at hdrop
    constructor
    · exact (List.suffix_append _ _).trans hdrop
    · intro _
      have hlength := hdrop.length_le
      simp only [List.length_append, Frame.envelope, List.length_cons] at hlength
      omega

/-! ### Taking out all frames -/

/-- Decoding keeps an end of the buffer, and a frame that it takes out has some length. -/
theorem decode_suffix {codec : Codec} {buffer rest : List UInt8} {frame : Option Frame}
    (h : codec.decode buffer = (frame, rest)) :
    rest <:+ buffer ∧ (frame.isSome → rest.length < buffer.length) := by
  by_cases hone : buffer.length = 1
  · obtain ⟨a, rfl⟩ := List.length_eq_one_iff.mp hone
    obtain ⟨rfl, rfl⟩ := Prod.mk.inj h
    exact ⟨List.suffix_refl _, by simp⟩
  · exact seek_suffix (decode_eq_seek codec hone ▸ h)

/-- The bound on the number of frames has no influence if it exceeds the number of bytes. -/
theorem decodeUpTo_eq (codec : Codec) {fuel fuel' : Nat} {buffer : List UInt8}
    (h : buffer.length < fuel) (h' : buffer.length < fuel') :
    codec.decodeUpTo fuel buffer = codec.decodeUpTo fuel' buffer := by
  induction fuel generalizing fuel' buffer with
  | zero => omega
  | succ fuel ih =>
    obtain ⟨fuel', rfl⟩ : ∃ n, fuel' = n + 1 := ⟨fuel' - 1, by omega⟩
    rw [decodeUpTo, decodeUpTo]
    cases hdecode : codec.decode buffer with
    | mk frame rest =>
      cases frame with
      | none => rfl
      | some frame =>
        have hshorter := (decode_suffix hdecode).2 rfl
        dsimp only
        rw [ih (by omega) (show rest.length < fuel' by omega)]

/-- Without a frame in front, nothing is taken out. -/
theorem decodeAll_of_none {codec : Codec} {buffer rest : List UInt8}
    (h : codec.decode buffer = (none, rest)) : codec.decodeAll buffer = ([], rest) := by
  rw [decodeAll, decodeUpTo, h]

/-- The first frame is taken out, and then all that follow. -/
theorem decodeAll_of_some {codec : Codec} {buffer rest : List UInt8} {frame : Frame}
    (h : codec.decode buffer = (some frame, rest)) :
    codec.decodeAll buffer =
      (frame :: (codec.decodeAll rest).1, (codec.decodeAll rest).2) := by
  have hshorter := (decode_suffix h).2 rfl
  have hbound := decodeUpTo_eq codec hshorter (Nat.lt_succ_self rest.length)
  rw [decodeAll, decodeUpTo, h]
  dsimp only
  rw [hbound, decodeAll]

/-- The frames that seeking finds one after another, and the bytes that it keeps at the end. -/
inductive Seeks (codec : Codec) : List UInt8 → List Frame → List UInt8 → Prop
  | stop {buffer rest : List UInt8} (h : codec.seek buffer = (none, rest)) :
    Seeks codec buffer [] rest
  | frame {buffer rest last : List UInt8} {frame : Frame} {frames : List Frame}
    (h : codec.seek buffer = (some frame, rest)) (more : Seeks codec rest frames last) :
    Seeks codec buffer (frame :: frames) last

/-- Seeking goes one way. -/
theorem Seeks.unique {codec : Codec} {buffer last last' : List UInt8} {frames frames' : List Frame}
    (h : codec.Seeks buffer frames last) (h' : codec.Seeks buffer frames' last') :
    frames = frames' ∧ last = last' := by
  induction h generalizing frames' with
  | stop hstop =>
    cases h' with
    | stop hstop' =>
      rw [hstop] at hstop'
      exact ⟨rfl, (Prod.mk.inj hstop').2⟩
    | frame hframe' => rw [hstop] at hframe'; cases hframe'
  | frame hframe more ih =>
    cases h' with
    | stop hstop' => rw [hframe] at hstop'; cases hstop'
    | frame hframe' more' =>
      rw [hframe] at hframe'
      obtain ⟨hsame, rfl⟩ := Prod.mk.inj hframe'
      obtain ⟨rfl, rfl⟩ := ih more'
      exact ⟨by rw [Option.some.inj hsame], rfl⟩

/-- Only what seeking finds first matters. -/
theorem Seeks.of_seek_eq {codec : Codec} {buffer buffer' last : List UInt8} {frames : List Frame}
    (h : codec.Seeks buffer frames last) (hsame : codec.seek buffer' = codec.seek buffer) :
    codec.Seeks buffer' frames last := by
  cases h with
  | stop hstop => exact .stop (hsame.trans hstop)
  | frame hframe more => exact .frame (hsame.trans hframe) more

/-- Seeking goes on in a longer buffer from where it stopped in the shorter one. -/
theorem Seeks.append {codec : Codec} {buffer last more last' : List UInt8}
    {frames frames' : List Frame} (h : codec.Seeks buffer frames last)
    (h' : codec.Seeks (last ++ more) frames' last') :
    codec.Seeks (buffer ++ more) (frames ++ frames') last' := by
  induction h with
  | stop hstop => exact h'.of_seek_eq (seek_append_of_none hstop more)
  | frame hframe _ ih => exact .frame (seek_append_of_some hframe more) (ih h')

/-! ### What a stream leaves -/

/-- All frames of a stream have been taken out and some end of it is left, which holds no further
frame and which is all that matters for what follows. -/
structure Leaves (codec : Codec) (stream : List UInt8) (frames : List Frame)
    (rest : List UInt8) : Prop where
  /-- What is left is an end of the stream. -/
  suffix : rest <:+ stream
  /-- It holds no further frame. -/
  drained : codec.decode rest = (none, rest)
  /-- Any continuation is read from it as from the whole stream. -/
  seeks : ∃ last, codec.Seeks stream frames last ∧ codec.seek rest = (none, last)

/-- A single byte is left by seeking if it is FF. -/
theorem seek_singleton (codec : Codec) (a : UInt8) :
    codec.seek [a] = (none, if a = 0xFF then [a] else []) := by
  by_cases ha : a = 0xFF <;> simp [seek, inspect, ha]

/-- Seeking again finds nothing either. -/
theorem seek_idempotent {codec : Codec} {buffer rest : List UInt8}
    (h : codec.seek buffer = (none, rest)) : codec.seek rest = (none, rest) := by
  have hagain := seek_append_of_none h []
  rwa [List.append_nil, List.append_nil, h, eq_comm] at hagain

/-- Seeking keeps what decoding keeps, apart from a single byte that starts no envelope. -/
theorem seek_of_drained {codec : Codec} {rest : List UInt8}
    (h : codec.decode rest = (none, rest)) :
    codec.seek rest = (none, rest) ∨ ∃ a, a ≠ 0xFF ∧ rest = [a] ∧ codec.seek rest = (none, []) := by
  by_cases hone : rest.length = 1
  · obtain ⟨a, rfl⟩ := List.length_eq_one_iff.mp hone
    have hseek := seek_singleton codec a
    by_cases ha : a = 0xFF
    · exact Or.inl (by rwa [if_pos ha] at hseek)
    · exact Or.inr ⟨a, ha, rfl, by rwa [if_neg ha] at hseek⟩
  · exact Or.inl (decode_eq_seek codec hone ▸ h)

/-- Taking out all frames leaves what decoding does not change any more. -/
theorem leaves_decodeAll (codec : Codec) (buffer : List UInt8) :
    codec.Leaves buffer (codec.decodeAll buffer).1 (codec.decodeAll buffer).2 := by
  induction hlength : buffer.length using Nat.strongRecOn generalizing buffer with
  | ind n ih =>
    subst hlength
    by_cases hone : buffer.length = 1
    · obtain ⟨a, rfl⟩ := List.length_eq_one_iff.mp hone
      have hwaits : codec.decode [a] = (none, [a]) := rfl
      rw [decodeAll_of_none hwaits]
      exact ⟨List.suffix_refl _, rfl, _, .stop (seek_singleton codec a), seek_singleton codec a⟩
    cases hdecode : codec.decode buffer with
    | mk frame rest =>
      have hseek : codec.seek buffer = (frame, rest) := decode_eq_seek codec hone ▸ hdecode
      obtain ⟨hsuffix, hshorter⟩ := decode_suffix hdecode
      cases frame with
      | none =>
        rw [decodeAll_of_none hdecode]
        have hagain := seek_idempotent hseek
        refine ⟨hsuffix, ?_, rest, .stop hseek, hagain⟩
        by_cases hrest : rest.length = 1
        · obtain ⟨a, rfl⟩ := List.length_eq_one_iff.mp hrest
          rfl
        · rw [decode_eq_seek codec hrest, hagain]
      | some frame =>
        obtain ⟨hleft, hdrained, last, hseeks, hlast⟩ := ih rest.length (hshorter rfl) rest rfl
        rw [decodeAll_of_some hdecode]
        exact ⟨hleft.trans hsuffix, hdrained, last, .frame hseek hseeks, hlast⟩

/-- A stream goes on from what its beginning leaves. -/
theorem Leaves.append {codec : Codec} {stream rest more rest' : List UInt8}
    {frames frames' : List Frame} (h : codec.Leaves stream frames rest)
    (h' : codec.Leaves (rest ++ more) frames' rest') :
    codec.Leaves (stream ++ more) (frames ++ frames') rest' := by
  obtain ⟨hsuffix, -, last, hseeks, hlast⟩ := h
  obtain ⟨hsuffix', hdrained', last', hseeks', hlast'⟩ := h'
  have hmore := hseeks'.of_seek_eq (seek_append_of_none hlast more).symm
  obtain ⟨front, rfl⟩ := hsuffix
  refine ⟨hsuffix'.trans ⟨front, ?_⟩, hdrained', last', hseeks.append hmore, hlast'⟩
  rw [List.append_assoc]

/-- The chunks of a stream leave what the stream leaves. -/
theorem leaves_feedAll {codec : Codec} {buffer : List UInt8}
    (hdrained : codec.decode buffer = (none, buffer)) (chunks : List (List UInt8)) :
    codec.Leaves (buffer ++ chunks.flatten) (codec.feedAll buffer chunks).1
      (codec.feedAll buffer chunks).2 := by
  induction chunks generalizing buffer with
  | nil =>
    rw [List.flatten_nil, List.append_nil, feedAll]
    rcases seek_of_drained hdrained with hseek | ⟨_, _, _, hseek⟩
    · exact ⟨List.suffix_refl _, hdrained, _, .stop hseek, hseek⟩
    · exact ⟨List.suffix_refl _, hdrained, _, .stop hseek, hseek⟩
  | cons chunk chunks ih =>
    have hchunk := codec.leaves_decodeAll (buffer ++ chunk)
    have hmore := hchunk.append (ih hchunk.drained)
    rw [List.flatten_cons, ← List.append_assoc]
    exact hmore

/-- Two ends of a stream are equal, or one is empty and the other a byte that starts no envelope. -/
def SameEnd (rest rest' : List UInt8) : Prop :=
  rest = rest' ∨ ∃ a, a ≠ 0xFF ∧ (rest = [] ∧ rest' = [a] ∨ rest = [a] ∧ rest' = [])

/-- A stream leaves the same frames and the same end however they were obtained. -/
theorem Leaves.unique {codec : Codec} {stream rest rest' : List UInt8} {frames frames' : List Frame}
    (h : codec.Leaves stream frames rest) (h' : codec.Leaves stream frames' rest') :
    frames = frames' ∧ SameEnd rest rest' := by
  obtain ⟨hsuffix, hdrained, last, hseeks, hlast⟩ := h
  obtain ⟨hsuffix', hdrained', last', hseeks', hlast'⟩ := h'
  obtain ⟨hframes, rfl⟩ := hseeks.unique hseeks'
  refine ⟨hframes, ?_⟩
  rcases seek_of_drained hdrained with hkept | ⟨a, ha, rfl, hkept⟩ <;>
    rcases seek_of_drained hdrained' with hkept' | ⟨b, hb, rfl, hkept'⟩ <;>
    rw [hlast, Prod.mk.injEq] at hkept <;> rw [hlast', Prod.mk.injEq] at hkept'
  · exact Or.inl (hkept.2.symm.trans hkept'.2)
  · exact Or.inr ⟨b, hb, Or.inl ⟨hkept.2.symm.trans hkept'.2, rfl⟩⟩
  · exact Or.inr ⟨a, ha, Or.inr ⟨rfl, hkept'.2.symm.trans hkept.2⟩⟩
  · have hsame : [a] <:+ [b] := List.suffix_of_suffix_length_le hsuffix hsuffix' (by simp)
    exact Or.inl (hsame.eq_of_length rfl)

/-- However a stream is cut into chunks, the same frames come out of it and the same end is left.
The frames of a beginning of the stream are the first ones. -/
theorem feedAll_cut (codec : Codec) (chunks chunks' : List (List UInt8)) :
    (chunks.flatten = chunks'.flatten →
      (codec.feedAll [] chunks).1 = (codec.feedAll [] chunks').1 ∧
        SameEnd (codec.feedAll [] chunks).2 (codec.feedAll [] chunks').2) ∧
      (chunks.flatten <+: chunks'.flatten →
        (codec.feedAll [] chunks).1 <+: (codec.feedAll [] chunks').1) := by
  have hempty : codec.decode [] = (none, []) := rfl
  have hleaves := leaves_feedAll hempty
  constructor
  · intro hsame
    have hfirst := hleaves chunks
    rw [hsame] at hfirst
    exact hfirst.unique (hleaves chunks')
  · rintro ⟨more, hmore⟩
    have hrest := codec.leaves_decodeAll ((codec.feedAll [] chunks).2 ++ more)
    have hwhole := (hleaves chunks).append hrest
    rw [List.nil_append, hmore] at hwhole
    exact ⟨_, (hwhole.unique (hleaves chunks')).1⟩

/-- A byte of noise that comes alone is kept, and dropped with the noise before it if both come
together. -/
example : (default.feedAll [] [[1, 2], [3]]).2 = [3] ∧ (default.feedAll [] [[1, 2, 3]]).2 = [] := by
  decide

end BeeProtocol.Codec
