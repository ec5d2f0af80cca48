import BeeProtocol.Message.Decoding
import BeeProtocol.Promise.Basic

/-!
# Handlers of single replies

A reply handler takes one payload of its kind and completes a promise with the message. Decoding
only stores the result; `complete` hands it to the promise. Giving up or letting go of the handler
fails the promise, unless it was complete before.
-/

namespace BeeProtocol

/-- A handler that waits for one message. -/
structure ReplyHandler where
  /-- The kind of message that the handler waits for. -/
  kind : MessageKind
  /-- What the message completes. -/
  promise : Promise Message
  /-- The result of the latest decode that has not been handed over. -/
  decoded : Option (Outcome Message)

namespace ReplyHandler

/-- A handler for a message of a kind, with a promise of its own. -/
def ofKind (kind : MessageKind) : ReplyHandler := ⟨kind, .empty, none⟩

/-- The frame type that the handler takes. -/
def frameType (handler : ReplyHandler) : UInt8 := handler.kind.frameType

/-- Every payload of the frame type is taken. -/
def isCandidate (_ : ReplyHandler) (_ : List UInt8) : Bool := true

/-- A single reply ends the handler. -/
def isMultiFrame (_ : ReplyHandler) : Bool := false

/-- The handler has always seen its last frame. -/
def isTerminal (_ : ReplyHandler) : Bool := true

/-- Completes the promise unless it is complete. -/
def settle (handler : ReplyHandler) (outcome : Outcome Message) : ReplyHandler :=
  { handler with promise := (handler.promise.complete outcome).2.1 }

/-- Decodes a payload and stores the result. -/
def decode (handler : ReplyHandler) (payload : List UInt8) : ReplyHandler :=
  { handler with
    decoded := some <|
      match Message.decode handler.kind payload with
      | .ok message => .ok message
      | .error reason => .error (.decode reason.message) }

/-- Hands the stored result to the promise, if there is one. -/
def complete (handler : ReplyHandler) : ReplyHandler :=
  match handler.decoded with
  | none => handler
  | some outcome => { handler with decoded := none }.settle outcome

/-- Fails the promise. -/
def abandon (handler : ReplyHandler) (reason : ClientError) : ReplyHandler :=
  handler.settle (.error reason)

/-- Lets go of the handler. -/
def drop (handler : ReplyHandler) : ReplyHandler := handler.abandon .connectionClosed

end ReplyHandler

end BeeProtocol
