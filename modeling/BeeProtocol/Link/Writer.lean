import BeeProtocol.Frame.Basic

/-!
# The outgoing side of a byte stream

Frames are put whole into an out-buffer, from whose front the stream takes bytes. How many it takes
depends on its mode, which the outside may change at any time. Bytes that it did not take stay in
the buffer and go out first.
-/

namespace BeeProtocol

/-- What the stream does with bytes. -/
inductive StreamMode
  /-- It takes everything. -/
  | flowing
  /-- It takes this many more bytes and then stalls. -/
  | limited (room : Nat)
  /-- It fails to take bytes. -/
  | broken (reason : String)
  /-- It takes everything and then fails to flush. -/
  | unflushable (reason : String)
  /-- It accepts writes of no bytes. -/
  | swallowing

/-- The outgoing side of a byte stream. -/
structure Writer where
  /-- Whether the stream takes bytes. -/
  mode : StreamMode
  /-- Bytes that the stream has not taken. -/
  outbox : List UInt8
  /-- The pieces that the stream has taken, newest first. -/
  pieces : List (List UInt8)
  /-- How often the stream was shut down. -/
  shutdowns : Nat

/-- How an attempt to empty the out-buffer ends. -/
inductive FlushResult
  | done
  | stalled
  | failed (reason : String)

namespace Writer

/-- A writer that has written nothing, on a stream that takes everything. -/
def fresh : Writer := ⟨.flowing, [], [], 0⟩

/-- The bytes that the stream has taken. -/
def taken (w : Writer) : List UInt8 := w.pieces.reverse.flatten

/-- The size from which older bytes have to go out before a frame is put into the out-buffer. -/
abbrev boundary : Nat := 8192

/-- Puts the bytes of a frame into the out-buffer. -/
def put (w : Writer) (bytes : List UInt8) : Writer := { w with outbox := w.outbox ++ bytes }

/-- The stream takes bytes from the front of the out-buffer. -/
def give (w : Writer) (count : Nat) : Writer :=
  { w with outbox := w.outbox.drop count, pieces := w.outbox.take count :: w.pieces }

/-- Writes out the out-buffer and flushes the stream, as far as the stream goes along. -/
def flush (w : Writer) : Writer × FlushResult :=
  match w.mode with
  | .flowing => (w.give w.outbox.length, .done)
  | .limited room =>
    let size := w.outbox.length
    let count := min room size
    let w := { w with mode := .limited (room - count) }
    (w.give count, if count = size then .done else .stalled)
  | .broken reason => (w, if w.outbox.isEmpty then .done else .failed reason)
  | .unflushable reason => (w.give w.outbox.length, .failed reason)
  | .swallowing =>
    (w, if w.outbox.isEmpty then .done else .failed "failed to write frame to transport")

/-- Shuts the stream down, which is never stalled and whose failure changes nothing. -/
def shutdown (w : Writer) : Writer := { w with shutdowns := w.shutdowns + 1 }

end Writer

end BeeProtocol
