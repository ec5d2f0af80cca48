import BeeProtocol.Proofs.Frame.Chunks

/-!
# Frames that are drawn one at a time

A reader draws frames from its buffer one at a time and reads on when there is none. At any moment
the frames that it has drawn and those that its buffer and all later bytes will give are together
the frames of the whole stream.
-/

namespace BeeProtocol.Codec

variable {codec : Codec} {stream buffer rest : List UInt8} {frames : List Frame} {frame : Frame}

/-- The frames were drawn from a stream whose rest gives, with whatever follows it, the frames that
are missing. -/
def Draws (codec : Codec) (stream : List UInt8) (frames : List Frame) (rest : List UInt8) : Prop :=
  ∀ more, (codec.decodeAll (stream ++ more)).1 = frames ++ (codec.decodeAll (rest ++ more)).1

/-- A frame that is taken out is taken out whatever follows. -/
theorem decode_append_of_some (h : codec.decode buffer = (some frame, rest)) (more : List UInt8) :
    codec.decode (buffer ++ more) = (some frame, rest ++ more) := by
  have hshorter := (decode_suffix h).2 rfl
  have hone : buffer.length ≠ 1 := by
    intro hone
    obtain ⟨a, rfl⟩ := List.length_eq_one_iff.mp hone
    cases h
  rw [decode_eq_seek codec hone] at h
  rw [decode_eq_seek codec (by rw [List.length_append]; omega), seek_append_of_some h]

/-- Without a frame, what is kept gives the same frames with whatever follows. -/
theorem decodeAll_append_of_none (h : codec.decode buffer = (none, rest)) (more : List UInt8) :
    (codec.decodeAll (buffer ++ more)).1 = (codec.decodeAll (rest ++ more)).1 := by
  have hleaves := codec.leaves_decodeAll buffer
  rw [decodeAll_of_none h] at hleaves
  have hmore := hleaves.append (codec.leaves_decodeAll (rest ++ more))
  exact ((codec.leaves_decodeAll (buffer ++ more)).unique hmore).1

/-- What is kept without a frame holds no frame. -/
theorem decode_rest_of_none (h : codec.decode buffer = (none, rest)) :
    (codec.decode rest).1 = none := by
  have hsame := decodeAll_append_of_none h []
  rw [List.append_nil, List.append_nil, decodeAll_of_none h] at hsame
  rcases hrest : codec.decode rest with ⟨frame, rest'⟩
  cases frame with
  | none => rfl
  | some frame =>
    rw [decodeAll_of_some hrest] at hsame
    cases hsame

namespace Draws

/-- Nothing is drawn in the beginning. -/
theorem nil (codec : Codec) : codec.Draws [] [] [] := fun _ => rfl

/-- More bytes arrive. -/
theorem arrive (h : codec.Draws stream frames rest) (chunk : List UInt8) :
    codec.Draws (stream ++ chunk) frames (rest ++ chunk) := by
  intro more
  rw [List.append_assoc, List.append_assoc, h]

/-- A frame is drawn. -/
theorem draw (h : codec.Draws stream frames buffer)
    (hdecode : codec.decode buffer = (some frame, rest)) :
    codec.Draws stream (frames ++ [frame]) rest := by
  intro more
  rw [h, decodeAll_of_some (decode_append_of_some hdecode more), List.append_assoc]
  rfl

/-- Nothing can be drawn, and noise is dropped. -/
theorem drop (h : codec.Draws stream frames buffer) (hdecode : codec.decode buffer = (none, rest)) :
    codec.Draws stream frames rest := by
  intro more
  rw [h, decodeAll_append_of_none hdecode]

/-- What was drawn are the first frames of the stream, however it goes on. -/
theorem isPrefix (h : codec.Draws stream frames rest) (more : List UInt8) :
    frames <+: (codec.decodeAll (stream ++ more)).1 :=
  ⟨_, (h more).symm⟩

/-- If nothing more can be drawn, all frames of the stream were. -/
theorem eq_decodeAll (h : codec.Draws stream frames buffer)
    (hdecode : codec.decode buffer = (none, rest)) : frames = (codec.decodeAll stream).1 := by
  have hall := h []
  rw [List.append_nil, List.append_nil, decodeAll_of_none hdecode, List.append_nil] at hall
  exact hall.symm

end Draws

end BeeProtocol.Codec
