import BeeProtocol.Frame.Basic

/-!
# Finding frames in a stream

The scanner looks for the first place in the buffer that can still be the start of an envelope.
Bytes before it are dropped. If a whole envelope starts there it is taken out; otherwise the scanner
waits for more bytes. Noise, an impossible length, a wrong checksum and a wrong end are never
errors: they only show that no envelope starts there.
-/

namespace BeeProtocol

/-- What the front of the buffer can be. -/
inductive Sighting
  /-- No envelope starts here, whatever follows. -/
  | noise
  /-- The bytes are too few to tell. -/
  | undecided
  /-- A whole envelope, and what follows it. -/
  | found (frame : Frame) (rest : List UInt8)

namespace Codec

/-- Judges an envelope whose mark has been seen. -/
def inspectEnvelope (codec : Codec) (buffer : List UInt8) : Sighting :=
  if !Bytes.hasAtLeast Frame.overhead buffer then .undecided
  else
    let size := Bytes.toNat ((buffer.drop 3).take 8)
    if codec.limit < size then .noise
    else if !Bytes.hasAtLeast (size + Frame.overhead) buffer then .undecided
    else
      let body := buffer.drop 11
      let ending := body.drop size
      if ending.take 10 == Bytes.ofNat 8 (size + Frame.overhead) ++ [0x0D, 0x0A] then
        .found ⟨buffer.getD 2 0, body.take size⟩ (ending.drop 10)
      else .noise

/-- Judges the front of the buffer. A single FF at the end may be the first half of a mark. -/
def inspect (codec : Codec) (buffer : List UInt8) : Sighting :=
  match buffer with
  | [] => .undecided
  | [a] => if a = 0xFF then .undecided else .noise
  | a :: b :: _ => if a = 0xFF ∧ b = 0xFF then codec.inspectEnvelope buffer else .noise

/-- Drops noise until something else is in front, and takes a frame out if it is whole. -/
def seek (codec : Codec) (buffer : List UInt8) : Option Frame × List UInt8 :=
  match codec.inspect buffer with
  | .undecided => (none, buffer)
  | .found frame rest => (some frame, rest)
  | .noise =>
    match buffer with
    | [] => (none, [])
    | _ :: rest => codec.seek rest

/-- Takes the first frame out of the buffer. Without one, the buffer keeps what may still become
one, and a buffer of one byte is kept as it is. -/
def decode (codec : Codec) (buffer : List UInt8) : Option Frame × List UInt8 :=
  match buffer with
  | [a] => (none, [a])
  | _ => codec.seek buffer

/-- Takes out all frames, at most `fuel` of them. -/
def decodeUpTo (codec : Codec) : Nat → List UInt8 → List Frame × List UInt8
  | 0, buffer => ([], buffer)
  | fuel + 1, buffer =>
    match codec.decode buffer with
    | (none, rest) => ([], rest)
    | (some frame, rest) =>
      let (frames, rest) := codec.decodeUpTo fuel rest
      (frame :: frames, rest)

/-- Takes out all frames. Each is longer than one byte, so there are fewer than bytes. -/
def decodeAll (codec : Codec) (buffer : List UInt8) : List Frame × List UInt8 :=
  codec.decodeUpTo (buffer.length + 1) buffer

/-- The last decode at the end of the stream: bytes that are left over and hold no frame are an
error. -/
def decodeAtEnd (codec : Codec) (buffer : List UInt8) :
    Except ProtocolError (Option Frame) × List UInt8 :=
  match codec.decode buffer with
  | (some frame, rest) => (.ok (some frame), rest)
  | (none, []) => (.ok none, [])
  | (none, rest) => (.error (.io "bytes remaining on stream"), rest)

end Codec

end BeeProtocol
