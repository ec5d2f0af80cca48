import BeeProtocol.Link.Registry

/-!
# The reader's turns

The reader takes all frames out of what it has before it reads more. A frame is decoded by the
handler that takes it, and the reader waits until that is done, for a row until it is stored. It
closes the link when the stream ends or reading fails, after the frames that it has.
-/

namespace BeeProtocol.Link

/-- Puts the reader at a stage. -/
def setReader (s : Link) (stage : ReaderStage) : Link :=
  { s with reader := { s.reader with stage := stage } }

/-- The reader is done with a payload of a statement: the handler is put back unless the statement
has ended. -/
def putBack (s : Link) (key : Nat) : Link :=
  let s := s.setReader .reading
  if (s.channels[key]?).any (·.isDone) then s else s.requeue (.statement key)

/-- The reader has no frame: it reads what has arrived next, or closes the link. False if it has to
wait. -/
def readMore (s : Link) : Link × Bool :=
  if s.reader.isAtEnd then (s.shutdown.setReader .stopped, false)
  else
    match s.inbound with
    | [] => (s, false)
    | .bytes bytes :: inbound =>
      ({ s with
        inbound := inbound
        reader := { s.reader with buffer := s.reader.buffer ++ bytes } }, true)
    | .ended :: inbound =>
      ({ s with inbound := inbound, reader := { s.reader with isAtEnd := true } }, true)
    | .failed _ :: inbound =>
      ({ s with inbound := inbound }.shutdown.setReader .stopped, false)

/-- Looks for the next frame and takes its handler off the queue; a frame that nobody takes is
discarded. -/
def readFrame (s : Link) : Link × Bool :=
  match s.codec.decode s.reader.buffer with
  | (none, buffer) => { s with reader := { s.reader with buffer := buffer } }.readMore
  | (some frame, buffer) =>
    let s := { s with reader := { s.reader with buffer := buffer } }
    match s.takeMatch frame with
    | (none, s) => (s, true)
    | (some handler, s) => (s.setReader (.decoding handler frame.payload), true)

/-- The reader hands a payload to the handler that it took off. -/
def decodePayload (s : Link) (handler : Handler) (payload : List UInt8) : Link :=
  match handler with
  | .reply key =>
    (s.changeReply key fun h => ((h.decode payload).complete).drop).setReader .reading
  | .statement key =>
    match (s.channels[key]?).bind fun c => (c.receive payload).2 with
    | some row => (s.changeChannel key fun c => (c.receive payload).1).setReader (.storing key row)
    | none => (s.changeChannel key fun c => (c.receive payload).1).putBack key

/-- The reader tries to store a row. False if it has to wait. -/
def storeRow (s : Link) (key : Nat) (row : Row) : Link × Bool :=
  let stored := (s.channels[key]?).all fun c => (c.store row).2
  let s := s.changeChannel key fun c => (c.store row).1
  if stored then (s.putBack key, true) else (s, false)

/-- The reader is ended: it lets go of the handler that it holds. -/
def dropReader (s : Link) : Link :=
  let stopped := s.setReader .stopped
  match s.reader.stage with
  | .decoding handler _ => stopped.letGo handler
  | .storing key _ => stopped.changeChannel key Channel.letGo
  | _ => stopped

/-- Lets the reader take its turn; true if it can go on further. -/
def readerTurn (s : Link) : Link × Bool :=
  if s.reader.isAborted then (s.dropReader, false)
  else
    match s.reader.stage with
    | .reading => s.readFrame
    | .decoding handler payload => (s.decodePayload handler payload, true)
    | .storing key row => s.storeRow key row
    | .stopped => (s, false)

end BeeProtocol.Link
