import BeeProtocol.Proofs.Message.Spelling
import BeeProtocol.Proofs.Message.StatementResponse

/-!
# Messages that are written are read back

A message fits the wire if its texts, byte strings and lists are within the lengths and counts that
stand before them. Exactly these messages are accepted for writing. They are appended to what is in
the buffer, and the same bytes, whatever follows them, decode to the message.
-/

namespace BeeProtocol

/-! ### What is accepted -/

/-- The message of a server error has at most 255 bytes. -/
def ServerError.Fits (error : ServerError) : Prop := (Utf8.encode error.message).length ≤ 255

/-- At most 255 columns with names of at most 255 bytes, or at most 255 values that fit. -/
def StatementEvent.Fits : StatementEvent → Prop
  | columns header =>
    header.length ≤ 255 ∧ ∀ column ∈ header, (Utf8.encode column.name).length ≤ 255
  | row values => values.length ≤ 255 ∧ ∀ value ∈ values, value.Fits
  | abort => True
  | error reason => reason.Fits

/-- All lengths and counts of a message are within what stands for them on the wire. Numbers always
are. -/
def Message.Fits : Message → Prop
  | connectRequest request =>
    (Value.string request.url).Fits ∧ (Value.string request.application).Fits
  | connectResponse .accepted => True
  | connectResponse (.rejected error) => error.Fits
  | statementRequest request => (Value.string request.script).Fits
  | statementResponse response => response.event.Fits
  | ping => True

/-- No field of a layout is refused. -/
def Layout.Accepted (layout : Layout) : Prop := ∀ field ∈ layout, ∃ bytes, field = .ok bytes

namespace Layout

/-- A layout without fields is accepted. -/
theorem accepted_nil : Accepted [] := by
  intro field hfield
  cases hfield

/-- A layout is accepted if its first field and the others are. -/
theorem accepted_cons_iff {field : Except ProtocolError (List UInt8)} {fields : Layout} :
    Accepted (field :: fields) ↔ (∃ bytes, field = .ok bytes) ∧ Accepted fields :=
  List.forall_mem_cons

/-- Bytes that stand in a layout are always accepted. -/
@[simp] theorem accepted_ok_cons_iff {bytes : List UInt8} {fields : Layout} :
    Accepted (.ok bytes :: fields) ↔ Accepted fields := by
  rw [accepted_cons_iff]
  exact and_iff_right ⟨bytes, rfl⟩

/-- A layout is accepted unless it is refused for some reason. -/
theorem refusal?_eq_none_iff (layout : Layout) : layout.refusal? = none ↔ layout.Accepted := by
  induction layout with
  | nil => exact iff_of_true rfl accepted_nil
  | cons field fields ih =>
    rw [accepted_cons_iff]
    cases field with
    | ok bytes => simpa [refusal?] using ih
    | error reason => simp [refusal?]

end Layout

/-- A value field is accepted if the value fits. -/
theorem valueField_ok_iff_fits (value : Value) :
    (∃ bytes, valueField value = .ok bytes) ↔ value.Fits := by
  simp only [valueField_eq_ok_iff, value.exists_encode_iff_fits]

/-- A short text field is accepted up to 255 bytes. -/
theorem shortTextField_ok_iff (field text : String) :
    (∃ bytes, shortTextField field text = .ok bytes) ↔ (Utf8.encode text).length ≤ 255 := by
  simp only [shortTextField_eq_ok_iff, exists_and_left, exists_eq, and_true]
  omega

/-- A count field is accepted up to 255. -/
theorem countField_ok_iff (items : String) (count : Nat) :
    (∃ bytes, countField items count = .ok bytes) ↔ count ≤ 255 := by
  simp only [countField_eq_ok_iff, exists_and_left, exists_eq, and_true]
  omega

/-- An error of the server is accepted if it fits. -/
theorem ServerError.accepted_iff_fits (error : ServerError) :
    error.layout.Accepted ↔ error.Fits := by
  rw [layout, Layout.accepted_ok_cons_iff, Layout.accepted_cons_iff, shortTextField_ok_iff]
  exact and_iff_left Layout.accepted_nil

/-- An event is accepted if it fits. -/
theorem StatementEvent.accepted_iff_fits (event : StatementEvent) :
    event.layout.Accepted ↔ event.Fits := by
  cases event with
  | columns header =>
    rw [layout, Layout.accepted_cons_iff, countField_ok_iff, Fits]
    refine and_congr_right fun _ => ?_
    simp only [Layout.Accepted, Column.layout, List.mem_flatMap]
    constructor
    · intro h column hcolumn
      exact (shortTextField_ok_iff _ _).mp (h _ ⟨column, hcolumn, List.mem_cons_self⟩)
    · rintro h field ⟨column, hcolumn, hfield⟩
      rcases List.mem_cons.mp hfield with rfl | hfield
      · exact (shortTextField_ok_iff _ _).mpr (h column hcolumn)
      · exact ⟨_, List.mem_singleton.mp hfield⟩
  | row values =>
    rw [layout, Layout.accepted_cons_iff, countField_ok_iff, Fits]
    refine and_congr_right fun _ => ?_
    simp only [Layout.Accepted, List.forall_mem_map, valueField_ok_iff_fits]
  | abort => exact iff_of_true Layout.accepted_nil trivial
  | error reason => exact reason.accepted_iff_fits

namespace Message

/-- A message is accepted if it fits. -/
theorem accepted_iff_fits (message : Message) : message.layout.Accepted ↔ message.Fits := by
  cases message with
  | connectRequest request =>
    rw [layout, Layout.accepted_cons_iff, Layout.accepted_cons_iff, valueField_ok_iff_fits,
      valueField_ok_iff_fits, Fits]
    exact and_congr_right fun _ => and_iff_left Layout.accepted_nil
  | connectResponse response =>
    cases response with
    | accepted => exact iff_of_true (by simpa [layout] using Layout.accepted_nil) trivial
    | rejected error =>
      rw [layout, Layout.accepted_ok_cons_iff, ServerError.accepted_iff_fits, Fits]
  | statementRequest request =>
    simp only [layout, Layout.accepted_cons_iff, valueField_ok_iff_fits, Fits]
    -- The integers on both sides of the script are always accepted.
    simp [Value.Fits, Layout.accepted_nil]
  | statementResponse response =>
    rw [layout, Layout.accepted_ok_cons_iff, Layout.accepted_ok_cons_iff,
      StatementEvent.accepted_iff_fits, Fits]
  | ping => exact iff_of_true (by simpa [layout] using Layout.accepted_nil) trivial

/-- Appending succeeds exactly if no length or count is exceeded, whatever is in the buffer. -/
theorem appendTo_ok_iff_fits (message : Message) (buffer : List UInt8) :
    (message.appendTo buffer).1 = .ok () ↔ message.Fits := by
  rw [← accepted_iff_fits, ← Layout.refusal?_eq_none_iff, appendTo]
  cases message.layout.refusal? <;> simp

/-- A message that fits has an encoding. -/
theorem exists_encode_of_fits {message : Message} (h : message.Fits) :
    ∃ bytes, message.encode = .ok bytes := by
  refine ⟨message.layout.written, encode_eq_ok_iff.mpr ⟨?_, rfl⟩⟩
  exact (Layout.refusal?_eq_none_iff _).mpr ((accepted_iff_fits message).mpr h)

/-- The buffer is left as it is and the bytes of the message come behind it. -/
theorem appendTo_of_encode {message : Message} {bytes : List UInt8}
    (h : message.encode = .ok bytes) (buffer : List UInt8) :
    message.appendTo buffer = (.ok (), buffer ++ bytes) := by
  obtain ⟨hnone, rfl⟩ := encode_eq_ok_iff.mp h
  rw [appendTo, hnone]

/-! ### What is read back -/

/-- A spelling of a message decodes to the message, whatever follows. -/
theorem decode_of_spells {message : Message} {spelled : List UInt8} (h : message.Spells spelled)
    (trailing : List UInt8) : decode message.kind (spelled ++ trailing) = .ok message := by
  by_cases hping : message = .ping
  · rw [hping]
    rfl
  · have hkind : message.kind ≠ .ping := by
      cases message <;> first | exact absurd rfl hping | simp [kind]
    refine Parser.parse_eq_ok_iff.mpr ⟨trailing, ?_⟩
    exact (parser_reads hkind _ _ _).mpr ⟨spelled, ⟨rfl, h⟩, rfl⟩

/-- The bytes of a message do what they are written for. -/
structure RoundTrips (message : Message) (bytes : List UInt8) : Prop where
  /-- They are appended to any buffer, which stays as it is before them. -/
  appended : ∀ buffer, message.appendTo buffer = (.ok (), buffer ++ bytes)
  /-- They decode to the message, with anything behind them. -/
  decoded : ∀ trailing, decode message.kind (bytes ++ trailing) = .ok message
  /-- The id of a statement response is found at their front. -/
  peeked : ∀ response trailing, message = .statementResponse response →
    StatementResponse.peekId (bytes ++ trailing) = some response.id

/-- A message that has an encoding is read back from it. -/
theorem roundTrips_of_encode {message : Message} {bytes : List UInt8}
    (h : message.encode = .ok bytes) : message.RoundTrips bytes where
  appended := appendTo_of_encode h
  decoded := decode_of_spells (spells_of_encode h)
  peeked := by
    rintro response trailing rfl
    have hdecoded := decode_of_spells (spells_of_encode h) trailing
    rw [kind, StatementResponse.decode_eq] at hdecoded
    cases hparse : StatementResponse.parser.parse (bytes ++ trailing) with
    | error reason =>
      rw [hparse] at hdecoded
      cases hdecoded
    | ok found =>
      rw [hparse] at hdecoded
      obtain rfl := statementResponse.inj (Except.ok.inj hdecoded)
      exact StatementResponse.peekId_of_parse hparse

/-- A message is accepted for writing exactly if its texts, byte strings and lists are within the
lengths and counts of the wire, and what is accepted is read back as it was: bit for bit, behind any
buffer and before any bytes. -/
theorem roundTrips_of_accepted (message : Message) :
    (∀ buffer, (message.appendTo buffer).1 = .ok () ↔ message.Fits) ∧
      ∀ buffer, (message.appendTo buffer).1 = .ok () →
        ∃ bytes, message.encode = .ok bytes ∧ message.RoundTrips bytes := by
  refine ⟨message.appendTo_ok_iff_fits, fun buffer haccepted => ?_⟩
  have hfits : message.Fits := (message.appendTo_ok_iff_fits buffer).mp haccepted
  obtain ⟨bytes, hbytes⟩ := exists_encode_of_fits hfits
  exact ⟨bytes, hbytes, roundTrips_of_encode hbytes⟩

/-- A row with a NaN, a text and a false boolean behind a byte of something else. -/
theorem roundTrips_nanRow :
    let message : Message := .statementResponse
      ⟨4294967295, .row [.number ⟨0x7FF8000000000001⟩, .string "é", .boolean false]⟩
    (message.appendTo [9]).1 = .ok () ∧
      ∃ bytes, message.encode = .ok bytes ∧ message.RoundTrips bytes :=
  ⟨rfl, (roundTrips_of_accepted _).2 [9] rfl⟩

end Message

end BeeProtocol
