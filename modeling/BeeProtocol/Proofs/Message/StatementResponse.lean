import BeeProtocol.Message.Decoding
import BeeProtocol.Proofs.Parser

/-!
# Payloads of statements

A payload of a statement holds an event or is malformed. The id that decoding reads is the one that
stands at the front of the payload, where the handlers look for it before they decode anything.
-/

namespace BeeProtocol

namespace StatementResponse

/-- Decoding a payload of a statement gives a statement response or a reason. -/
theorem decode_eq (payload : List UInt8) :
    Message.decode .statementResponse payload =
      (parser.parse payload).map Message.statementResponse :=
  Parser.parse_map Message.statementResponse parser payload

/-- A decoded response carries the id at the front of its payload. -/
theorem peekId_of_parse {payload : List UInt8} {response : StatementResponse}
    (h : parser.parse payload = .ok response) : peekId payload = some response.id := by
  simp only [parser, Parser.parse, Parser.bind_apply, part, Parser.mapError, readUInt32, readNat,
    readBytes, Functor.map, StateT.map] at h
  rw [peekId]
  cases hfront : Bytes.split? 4 payload with
  | none => simp [hfront, bind, Except.bind] at h
  | some front =>
    simp only [hfront, bind, Except.bind, pure, Except.pure] at h
    cases hevent : StatementEvent.parser front.2 with
    | error reason => simp [hevent] at h
    | ok result =>
      rw [hevent] at h
      obtain rfl := Except.ok.inj h
      rfl

end StatementResponse

end BeeProtocol
