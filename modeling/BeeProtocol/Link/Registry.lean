import BeeProtocol.Link.Basic

/-!
# Handlers that wait for frames

A handler is registered when its frame is about to be written. A frame goes to the first waiting
handler that takes it; the handler of a statement that goes on is put back in front. Closing the
link fails every handler that waits, and from then on none is registered or put back.
-/

namespace BeeProtocol.Link

/-- Fails a handler. -/
def abandon (s : Link) (handler : Handler) (reason : ClientError) : Link :=
  match handler with
  | .statement key => s.changeChannel key fun c => c.finish (some reason)
  | .reply key => s.changeReply key fun h => h.abandon reason

/-- Lets go of a handler that nobody else has. -/
def letGo (s : Link) (handler : Handler) : Link := s.abandon handler .connectionClosed

/-- Whether a handler takes a frame: it is of the handler's type, and starts with the id in the case
of a statement. -/
def accepts (s : Link) (frame : Frame) : Handler → Bool
  | .statement key =>
    frame.type == MessageKind.statementResponse.frameType
      && (s.channels[key]?).any fun c => c.isCandidate frame.payload
  | .reply key =>
    (s.replies[key]?).any fun h => h.frameType == frame.type && h.isCandidate frame.payload

/-- Registers a handler behind the others; a closed link fails it instead. -/
def register (s : Link) (handler : Handler) : Link :=
  if s.isClosed then s.letGo handler
  else { s with pending := s.pending ++ [handler] }

/-- Puts a handler back in front of the others; a closed link fails it instead. -/
def requeue (s : Link) (handler : Handler) : Link :=
  if s.isClosed then s.letGo handler
  else { s with pending := handler :: s.pending }

/-- Takes a handler that expects nothing any more off the queue. -/
def unregister (s : Link) (handler : Handler) : Link :=
  { s with pending := s.pending.filter (· != handler) }

/-- Takes off the first handler that takes the frame. -/
def takeMatch (s : Link) (frame : Frame) : Option Handler × Link :=
  match s.pending.find? (s.accepts frame) with
  | none => (none, s)
  | some handler => (some handler, { s with pending := s.pending.erase handler })

/-- Marks the link closed and fails every handler that waits. -/
def shutdown (s : Link) : Link :=
  if s.isClosed then s
  else s.pending.foldl (fun s handler => s.letGo handler) { s with phase := .closed, pending := [] }

/-- Ends the reader at its next turn. -/
def stopReader (s : Link) : Link :=
  match s.reader.stage with
  | .stopped => s
  | _ => { s with reader := { s.reader with isAborted := true } }.wake .reader

/-- Closes the link for good, without telling the peer. -/
def fail (s : Link) : Link := s.shutdown.stopReader

/-- Marks an accepted handshake. -/
def markOpen (s : Link) : Link :=
  if s.phase = .connecting then { s with phase := .opened } else s

end BeeProtocol.Link
