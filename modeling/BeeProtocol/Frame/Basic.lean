import BeeProtocol.Bytes
import BeeProtocol.Message.Layout

/-!
# Frames

A frame carries a payload under a one-byte type. On the wire it is an envelope: the mark FF FF, the
type, the payload's length in eight bytes, the payload, a checksum of eight bytes that is the size
of the whole envelope, and the end 0D 0A. A codec has a limit for payloads, which is a number of 32
bits.
-/

namespace BeeProtocol

/-- A payload and its type. -/
structure Frame where
  /-- What kind of message the payload is. -/
  type : UInt8
  /-- The bytes of the message. -/
  payload : List UInt8
  deriving DecidableEq

/-- The bytes of an envelope around its payload. -/
abbrev Frame.overhead : Nat := 21

/-- The size of a frame on the wire. -/
def Frame.wireSize (frame : Frame) : Nat := frame.payload.length + Frame.overhead

/-- The envelope of a frame. -/
def Frame.envelope (frame : Frame) : List UInt8 :=
  [0xFF, 0xFF, frame.type] ++ Bytes.ofNat 8 frame.payload.length ++ frame.payload
    ++ Bytes.ofNat 8 frame.wireSize ++ [0x0D, 0x0A]

/-- The frame that carries a message. -/
def Message.toFrame (message : Message) : Except ProtocolError Frame :=
  message.encode.map fun payload => ⟨message.kind.frameType, payload⟩

/-- A limit for the size of payloads. -/
structure Codec where
  /-- The largest size of a payload. -/
  limit : Nat
  /-- The size of a payload is written in 32 bits. -/
  limit_le : limit ≤ UInt32.size - 1

namespace Codec

/-- The limit of 64 MiB that holds when none is given. -/
def default : Codec := ⟨64 * 1024 * 1024, by decide⟩

/-- A codec with a limit of its own, lowered to the largest possible one. -/
def withLimit (limit : Nat) : Codec := ⟨min limit (UInt32.size - 1), Nat.min_le_right _ _⟩

/-- The bytes of a frame, refused if its payload is over the limit. -/
def encode (codec : Codec) (frame : Frame) : Except ProtocolError (List UInt8) :=
  let size := frame.payload.length
  if size ≤ codec.limit then .ok frame.envelope else .error (.frameTooLarge size codec.limit)

end Codec

end BeeProtocol
