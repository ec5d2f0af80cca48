import BeeProtocol.Proofs.Message.RoundTrip
import BeeProtocol.Proofs.Value.Failures

/-!
# Messages that are cut short

The parts of a message are read without a look at what follows them, so a payload that ends inside a
message is reported as cut short, wherever it ends: inside a number, a length, a character of a
text, or behind any number of whole columns or values. It is never taken for another message. The id
of a statement response is still found at the front as soon as its four bytes are there.
-/

namespace BeeProtocol

/-! ### Parts of messages -/

/-- A value within a message is read firmly if it is by itself. -/
theorem part_firm {α : Type} {parser : Parser ValueError α} (h : parser.Firm .unexpectedEnd) :
    (part parser).Firm (.value .unexpectedEnd) := h.mapError ProtocolError.value

/-- More bytes do not change the string that is read. -/
theorem readStringField_firm (field : String) :
    (readStringField field).Firm (.value .unexpectedEnd) := by
  refine (part_firm Value.parser_firm).bind fun value => ?_
  cases value with
  | string text => exact .pure text
  | _ => exact .fail _

/-- More bytes do not change the number that is read. -/
theorem readUInt32Field_firm (field : String) :
    (readUInt32Field field).Firm (.value .unexpectedEnd) := by
  refine (part_firm Value.parser_firm).bind fun value => ?_
  cases value with
  | integer i =>
    dsimp only
    split
    · exact .pure _
    · exact .fail _
  | _ => exact .fail _

/-- More bytes do not change the error that is read. -/
theorem ServerError.parser_firm : ServerError.parser.Firm (.value .unexpectedEnd) :=
  (part_firm ((readNat_firm 4).map _)).bind fun code =>
    (part_firm Value.readShortText_firm).bind fun message => .pure (ServerError.mk code message)

/-- More bytes do not change the column that is read. -/
theorem Column.parser_firm : Column.parser.Firm (.value .unexpectedEnd) :=
  (part_firm Value.readShortText_firm).bind fun name =>
    (part_firm readDataType_firm).bind fun dataType => .pure (Column.mk name dataType)

/-- More bytes do not change the event that is read. -/
theorem StatementEvent.parser_firm : StatementEvent.parser.Firm (.value .unexpectedEnd) := by
  refine (part_firm readByte_firm).bind fun state => ?_
  split
  · exact (part_firm readByte_firm).bind fun count =>
      (Column.parser_firm.replicate count.toNat).bind fun header => .pure (columns header)
  · exact (part_firm readByte_firm).bind fun count =>
      ((part_firm Value.parser_firm).replicate count.toNat).bind fun values => .pure (row values)
  · exact .pure abort
  · exact ServerError.parser_firm.bind fun reason => .pure (error reason)
  · exact .fail _

/-! ### Whole messages -/

/-- More bytes do not change the connect request that is read. -/
theorem ConnectRequest.parser_firm : ConnectRequest.parser.Firm (.value .unexpectedEnd) :=
  (readStringField_firm "url").bind fun url =>
    (readStringField_firm "application").bind fun application =>
      .pure (ConnectRequest.mk url application)

/-- More bytes do not change the connect response that is read. -/
theorem ConnectResponse.parser_firm : ConnectResponse.parser.Firm (.value .unexpectedEnd) := by
  refine (part_firm readByte_firm).bind fun status => ?_
  split
  · exact .pure accepted
  · exact ServerError.parser_firm.bind fun reason => .pure (rejected reason)
  · exact .fail _

/-- More bytes do not change the statement request that is read. -/
theorem StatementRequest.parser_firm : StatementRequest.parser.Firm (.value .unexpectedEnd) :=
  (readUInt32Field_firm "id").bind fun id =>
    (readStringField_firm "script").bind fun script =>
      (readUInt32Field_firm "timeout").bind fun timeout =>
        .pure (StatementRequest.mk id script timeout)

/-- More bytes do not change the statement response that is read. -/
theorem StatementResponse.parser_firm : StatementResponse.parser.Firm (.value .unexpectedEnd) :=
  (part_firm ((readNat_firm 4).map _)).bind fun id =>
    StatementEvent.parser_firm.bind fun event => .pure (StatementResponse.mk id event)

namespace Message

/-- More bytes do not change the message of any kind that is read. -/
theorem parser_firm (kind : MessageKind) : (parser kind).Firm (.value .unexpectedEnd) := by
  cases kind with
  | connectRequest => exact ConnectRequest.parser_firm.map connectRequest
  | connectResponse => exact ConnectResponse.parser_firm.map connectResponse
  | statementRequest => exact StatementRequest.parser_firm.map statementRequest
  | statementResponse => exact StatementResponse.parser_firm.map statementResponse
  | ping => exact .pure ping

/-- A message of which bytes are missing is reported as cut short. -/
theorem decode_of_cut {message : Message} {cut missing : List UInt8}
    (hkind : message.kind ≠ .ping) (hencode : message.encode = .ok (cut ++ missing))
    (hmissing : missing ≠ []) :
    decode message.kind cut = .error (.value .unexpectedEnd) := by
  have hwhole : parser message.kind (cut ++ missing) = .ok (message, []) :=
    (parser_reads hkind _ _ _).mpr
      ⟨_, ⟨rfl, spells_of_encode hencode⟩, (List.append_nil _).symm⟩
  rw [decode, Parser.parse, (parser_firm message.kind).eq_shortage hmissing hwhole]

end Message

namespace StatementResponse

/-- The id is found in what is there of a response once its four bytes are there. -/
theorem peekId_of_cut {response : StatementResponse} {cut missing : List UInt8}
    (hencode : (Message.statementResponse response).encode = .ok (cut ++ missing)) :
    peekId cut = if 4 ≤ cut.length then some response.id else none := by
  have hpeek : peekId (cut ++ missing) = some response.id := by
    simpa using (Message.roundTrips_of_encode hencode).peeked response [] rfl
  unfold peekId Bytes.split? at hpeek ⊢
  simp only [Bytes.hasAtLeast_iff] at hpeek ⊢
  split
  · rename_i hlength
    rw [if_pos (by rw [List.length_append]; omega), List.take_append_of_le_length hlength] at hpeek
    exact hpeek
  · rfl

end StatementResponse

end BeeProtocol
