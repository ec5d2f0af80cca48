import BeeProtocol.Proofs.Frame.Recovery

/-!
# Frame streams round-trip

Frames that are encoded into one buffer, one behind another, come out of it again, whatever their
payloads imitate. The beginning of one more envelope stays in the buffer, wherever it is cut: as
more bytes could make it whole, no position of it is refuted and nothing is found in it. The
encoder and the decoder have the same limit: what is over it is refused by the first and never
given out by the second.
-/

namespace BeeProtocol.Codec

variable {codec : Codec}

/-- Encodes a frame into a buffer: behind what is there if it is accepted. -/
def encodeInto (codec : Codec) (buffer : List UInt8) (frame : Frame) :
    Except ProtocolError Unit × List UInt8 :=
  match codec.encode frame with
  | .ok bytes => (.ok (), buffer ++ bytes)
  | .error error => (.error error, buffer)

/-- Encodes frames into a buffer one behind another, as long as they are accepted. -/
def encodeAllInto (codec : Codec) :
    List UInt8 → List Frame → Except ProtocolError Unit × List UInt8
  | buffer, [] => (.ok (), buffer)
  | buffer, frame :: frames =>
    match codec.encodeInto buffer frame with
    | (.ok (), written) => codec.encodeAllInto written frames
    | refused => refused

/-! ### Encoding -/

/-- A frame is accepted if its payload is within the limit. -/
theorem encode_eq_ok_iff {frame : Frame} {bytes : List UInt8} :
    codec.encode frame = .ok bytes ↔
      frame.payload.length ≤ codec.limit ∧ bytes = frame.envelope := by
  by_cases hsize : frame.payload.length ≤ codec.limit <;> simp [encode, hsize, eq_comm]

/-- An accepted frame is put behind the buffer as an envelope, and a refused one leaves the buffer
as it is. -/
theorem encodeInto_eq (buffer : List UInt8) (frame : Frame) :
    codec.encodeInto buffer frame =
      if codec.limit < frame.payload.length then
        (.error (.frameTooLarge frame.payload.length codec.limit), buffer)
      else (.ok (), buffer ++ frame.envelope) := by
  by_cases hsize : frame.payload.length ≤ codec.limit
  · rw [if_neg (Nat.not_lt.mpr hsize), encodeInto, encode_eq_ok_iff.mpr ⟨hsize, rfl⟩]
  · rw [if_pos (Nat.not_le.mp hsize), encodeInto, encode]
    simp only [if_neg hsize]

/-- Frames that are all accepted are within the limit, and their envelopes are behind the buffer. -/
theorem encodeAllInto_eq_ok {buffer stream : List UInt8} {frames : List Frame}
    (h : codec.encodeAllInto buffer frames = (.ok (), stream)) :
    (∀ frame ∈ frames, frame.payload.length ≤ codec.limit) ∧
      stream = buffer ++ Frame.envelopes frames := by
  induction frames generalizing buffer with
  | nil =>
    obtain ⟨-, rfl⟩ := Prod.mk.inj h
    exact ⟨by simp, (List.append_nil buffer).symm⟩
  | cons frame frames ih =>
    rw [encodeAllInto, encodeInto_eq] at h
    by_cases hsize : codec.limit < frame.payload.length
    · simp [hsize] at h
    · rw [if_neg hsize] at h
      obtain ⟨hsizes, rfl⟩ := ih h
      refine ⟨List.forall_mem_cons.mpr ⟨Nat.not_lt.mp hsize, hsizes⟩, ?_⟩
      rw [Frame.envelopes_cons, List.append_assoc]

/-! ### A beginning of an envelope -/

/-- A beginning of an envelope is undecided as long as bytes are missing. -/
theorem inspect_of_strictPrefix {frame : Frame} {tail : List UInt8}
    (hsize : frame.payload.length ≤ codec.limit) (hbegins : tail <+: frame.envelope)
    (hstrict : tail ≠ frame.envelope) : codec.inspect tail = .undecided := by
  obtain ⟨missing, hwhole⟩ := hbegins
  have hfound := codec.inspect_envelope frame [] hsize
  rw [List.append_nil, ← hwhole] at hfound
  cases hsight : codec.inspect tail with
  | undecided => rfl
  | noise =>
    have hrefuted := (inspect_eq_noise_iff.mp hsight).append missing
    rw [inspect_eq_noise_iff.mpr hrefuted] at hfound
    cases hfound
  | found other rest =>
    rw [inspect_append_found hsight] at hfound
    have hnothing := (Sighting.found.inj hfound).2
    rw [(List.append_eq_nil_iff.mp hnothing).2, List.append_nil] at hwhole
    exact absurd hwhole hstrict

/-- A beginning of an envelope is kept in the buffer as long as bytes are missing. -/
theorem decode_of_strictPrefix {frame : Frame} {tail : List UInt8}
    (hsize : frame.payload.length ≤ codec.limit) (hbegins : tail <+: frame.envelope)
    (hstrict : tail ≠ frame.envelope) : codec.decode tail = (none, tail) := by
  by_cases hone : tail.length = 1
  · obtain ⟨a, rfl⟩ := List.length_eq_one_iff.mp hone
    rfl
  · rw [decode_eq_seek codec hone, seek.eq_def, inspect_of_strictPrefix hsize hbegins hstrict]

/-- Envelopes come out of a buffer that goes on behind them as they come out of their own, and then
what is behind them is decoded. -/
theorem decodeAll_envelopes_append {frames : List Frame} {tail : List UInt8}
    (hsize : ∀ frame ∈ frames, frame.payload.length ≤ codec.limit) :
    codec.decodeAll (Frame.envelopes frames ++ tail) =
      (frames ++ (codec.decodeAll tail).1, (codec.decodeAll tail).2) := by
  induction frames with
  | nil => rfl
  | cons frame frames ih =>
    rw [List.forall_mem_cons] at hsize
    rw [Frame.envelopes_cons, List.append_assoc, decodeAll_of_some (decode_envelope hsize.1 _),
      ih hsize.2]
    rfl

/-! ### The beginning of a stream of frames -/

/-- Some bytes are a beginning of a frame's envelope that is not the whole of it, or there is no
frame and no byte. -/
def Begins (part : List UInt8) : Option Frame → Prop
  | none => part = []
  | some frame => part <+: frame.envelope ∧ part ≠ frame.envelope

/-- A beginning of a stream of envelopes is some of the envelopes and a beginning of the next. -/
theorem exists_whole_envelopes {frames : List Frame} {stream : List UInt8}
    (h : stream <+: Frame.envelopes frames) :
    ∃ whole rest part, frames = whole ++ rest ∧ stream = Frame.envelopes whole ++ part ∧
      Begins part rest.head? := by
  induction frames generalizing stream with
  | nil =>
    obtain rfl := List.prefix_nil.mp h
    exact ⟨[], [], [], rfl, rfl, rfl⟩
  | cons frame frames ih =>
    rw [Frame.envelopes_cons] at h
    by_cases hwhole : frame.envelope <+: stream
    · obtain ⟨later, rfl⟩ := hwhole
      obtain ⟨whole, rest, part, rfl, rfl, hpart⟩ := ih ((List.prefix_append_right_inj _).mp h)
      refine ⟨frame :: whole, rest, part, rfl, ?_, hpart⟩
      rw [Frame.envelopes_cons, List.append_assoc]
    · refine ⟨[], frame :: frames, stream, rfl, rfl, ?_, ?_⟩
      · rcases List.prefix_or_prefix_of_prefix h (List.prefix_append frame.envelope _) with
          hpart | hover
        · exact hpart
        · exact absurd hover hwhole
      · rintro rfl
        exact hwhole List.prefix_rfl

/-- However the beginning of a stream of accepted frames is cut, the frames that are whole come out
of it and no others. -/
theorem feedAll_envelopes {whole rest : List Frame} {part : List UInt8}
    (hsize : ∀ frame ∈ whole ++ rest, frame.payload.length ≤ codec.limit)
    (hpart : Begins part rest.head?) {chunks : List (List UInt8)}
    (hchunks : chunks.flatten = Frame.envelopes whole ++ part) :
    (codec.feedAll [] chunks).1 = whole := by
  have hkept : codec.decode part = (none, part) := by
    cases rest with
    | nil =>
      obtain rfl : part = [] := hpart
      rfl
    | cons next rest =>
      obtain ⟨hbegins, hstrict⟩ : part <+: next.envelope ∧ part ≠ next.envelope := hpart
      exact decode_of_strictPrefix (hsize next (by simp)) hbegins hstrict
  have hone : (codec.feedAll [] [Frame.envelopes whole ++ part]).1 = whole := by
    dsimp only [feedAll]
    rw [List.nil_append, decodeAll_envelopes_append fun frame hmem =>
      hsize frame (List.mem_append_left rest hmem), decodeAll_of_none hkept]
    simp
  have hcut := (codec.feedAll_cut chunks [Frame.envelopes whole ++ part]).1
  rw [(hcut (by simpa using hchunks)).1, hone]

/-- Frames that are within the limit are all accepted. -/
theorem encodeAllInto_of_le {frames : List Frame}
    (hsize : ∀ frame ∈ frames, frame.payload.length ≤ codec.limit) (buffer : List UInt8) :
    codec.encodeAllInto buffer frames = (.ok (), buffer ++ Frame.envelopes frames) := by
  induction frames generalizing buffer with
  | nil => rw [encodeAllInto, Frame.envelopes, List.flatMap_nil, List.append_nil]
  | cons frame frames ih =>
    obtain ⟨hfirst, hmore⟩ := List.forall_mem_cons.mp hsize
    rw [encodeAllInto, encodeInto_eq, if_neg (Nat.not_lt.mpr hfirst)]
    dsimp only
    rw [ih hmore, Frame.envelopes_cons, List.append_assoc]

/-! ### The limit of the decoder -/

/-- A frame that is taken out is within the limit. -/
theorem length_of_decode_eq_some {buffer rest : List UInt8} {frame : Frame}
    (h : codec.decode buffer = (some frame, rest)) : frame.payload.length ≤ codec.limit := by
  by_cases hone : buffer.length = 1
  · obtain ⟨a, rfl⟩ := List.length_eq_one_iff.mp hone
    cases h
  · rw [decode_eq_seek codec hone] at h
    obtain ⟨p, hfront⟩ := codec.exists_isFront buffer
    exact ((seek_eq_some_iff hfront).mp h).1

/-- All frames that are taken out are within the limit. -/
theorem length_of_mem_decodeAll {buffer : List UInt8} {frame : Frame}
    (h : frame ∈ (codec.decodeAll buffer).1) : frame.payload.length ≤ codec.limit := by
  induction hlength : buffer.length using Nat.strongRecOn generalizing buffer with
  | ind n ih =>
    subst hlength
    cases hdecode : codec.decode buffer with
    | mk first rest =>
      cases first with
      | none =>
        rw [decodeAll_of_none hdecode] at h
        exact absurd h List.not_mem_nil
      | some first =>
        rw [decodeAll_of_some hdecode] at h
        rcases List.mem_cons.mp h with rfl | hmem
        · exact length_of_decode_eq_some hdecode
        · exact ih rest.length ((decode_suffix hdecode).2 rfl) hmem rfl

/-- However a stream arrives, the frames that come out of it are within the limit. -/
theorem length_of_mem_feedAll {buffer : List UInt8} {chunks : List (List UInt8)} {frame : Frame}
    (h : frame ∈ (codec.feedAll buffer chunks).1) : frame.payload.length ≤ codec.limit := by
  induction chunks generalizing buffer with
  | nil => exact absurd h List.not_mem_nil
  | cons chunk chunks ih =>
    rcases List.mem_append.mp h with hfirst | hmore
    · exact length_of_mem_decodeAll hfirst
    · exact ih hmore

/-! ### The round trip -/

/-- With the limit `limit`, lowered to the largest possible one, a frame is refused exactly if its
payload is longer, and then the buffer stays as it is. Otherwise the buffer grows by the frame's
size. If all frames are accepted and a strict beginning of one more accepted frame's bytes follows
them, exactly they come out and exactly that beginning is left. No payload over the limit comes out
of any bytes. -/
theorem roundTrips_withLimit (limit : Nat) :
    let codec := withLimit limit
    let maximum := min limit (UInt32.size - 1)
    (∀ (buffer : List UInt8) (frame : Frame),
      (maximum < frame.payload.length →
        codec.encodeInto buffer frame =
          (.error (.frameTooLarge frame.payload.length maximum), buffer)) ∧
      (frame.payload.length ≤ maximum →
        ∃ added, codec.encodeInto buffer frame = (.ok (), buffer ++ added) ∧
          added.length = frame.wireSize)) ∧
    (∀ (frames : List Frame) (stream : List UInt8) (further : Frame) (bytes tail : List UInt8),
      codec.encodeAllInto [] frames = (.ok (), stream) → codec.encode further = .ok bytes →
        tail <+: bytes → tail ≠ bytes → codec.decodeAll (stream ++ tail) = (frames, tail)) ∧
    ∀ (buffer : List UInt8) (chunks : List (List UInt8)),
      ∀ frame ∈ (codec.feedAll buffer chunks).1, frame.payload.length ≤ maximum := by
  intro codec maximum
  refine ⟨?_, ?_, fun _ _ _ => length_of_mem_feedAll⟩
  · intro buffer frame
    rw [encodeInto_eq]
    constructor
    · intro hover
      exact if_pos hover
    · intro hwithin
      exact ⟨frame.envelope, if_neg (Nat.not_lt.mpr hwithin), frame.length_envelope⟩
  · intro frames stream further bytes tail haccepted hfurther hbegins hstrict
    obtain ⟨hsizes, rfl⟩ := encodeAllInto_eq_ok haccepted
    obtain ⟨hsize, rfl⟩ := encode_eq_ok_iff.mp hfurther
    have hkept := decode_of_strictPrefix hsize hbegins hstrict
    rw [List.nil_append, decodeAll_envelopes_append hsizes, decodeAll_of_none hkept,
      List.append_nil]

/-- A payload of two whole envelopes, an envelope behind it, and the first half of one more mark. -/
theorem roundTrips_imitation :
    let codec := withLimit 100
    let inner : Frame := ⟨3, [0xFF, 0xFF, 0x0D, 0x0A]⟩
    let outer : Frame := ⟨5, inner.envelope ++ inner.envelope⟩
    let stream := outer.envelope ++ inner.envelope
    codec.encodeAllInto [] [outer, inner] = (.ok (), stream) ∧
      codec.decodeAll (stream ++ [0xFF]) = ([outer, inner], [0xFF]) := by
  intro codec inner outer stream
  have haccepted : codec.encodeAllInto [] [outer, inner] = (.ok (), stream) := rfl
  have htrips := (roundTrips_withLimit 100).2.1
  exact ⟨haccepted, htrips [outer, inner] stream inner inner.envelope [0xFF] haccepted rfl
    (by decide) (by decide)⟩

end BeeProtocol.Codec
