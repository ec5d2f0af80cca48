import BeeProtocol.Message.Decoding
import BeeProtocol.Message.Layout
import BeeProtocol.Proofs.Value.Spelling

/-!
# How messages are spelled

A layout writes bytes if no field of it is refused. The spelling of a message is what its layout
writes; only a row has more than one, since its values are spelled one behind the other and false
has several spellings. Decoding a payload is reading a spelling of a message at its front.
-/

namespace BeeProtocol

/-! ### What a layout writes -/

namespace Layout

/-- All fields can be written, and these are their bytes. -/
def Writes (layout : Layout) (bytes : List UInt8) : Prop :=
  layout.refusal? = none ∧ bytes = layout.written

/-- A layout without fields writes nothing. -/
theorem writes_nil_iff (bytes : List UInt8) : Writes [] bytes ↔ bytes = [] := by
  simp [Writes, refusal?, written]

/-- A layout writes its first field and then the others. -/
theorem writes_cons_iff {field : Except ProtocolError (List UInt8)} {fields : Layout}
    {bytes : List UInt8} : Writes (field :: fields) bytes ↔
      ∃ front back, field = .ok front ∧ Writes fields back ∧ bytes = front ++ back := by
  cases field with
  | error reason => simp [Writes, refusal?]
  | ok front =>
    simp only [Writes, refusal?, written, Except.ok.injEq]
    constructor
    · rintro ⟨hnone, rfl⟩
      exact ⟨front, _, rfl, ⟨hnone, rfl⟩, rfl⟩
    · rintro ⟨_, _, rfl, ⟨hnone, rfl⟩, rfl⟩
      exact ⟨hnone, rfl⟩

/-- Bytes that stand in a layout are written as they are. -/
theorem writes_ok_cons_iff {first : List UInt8} {fields : Layout} {bytes : List UInt8} :
    Writes (.ok first :: fields) bytes ↔ ∃ back, Writes fields back ∧ bytes = first ++ back := by
  rw [writes_cons_iff]
  constructor
  · rintro ⟨_, back, hfirst, hback, rfl⟩
    obtain rfl := Except.ok.inj hfirst
    exact ⟨back, hback, rfl⟩
  · rintro ⟨back, hback, rfl⟩
    exact ⟨first, back, rfl, hback, rfl⟩

/-- A layout of one field writes that field. -/
theorem writes_singleton_iff {field : Except ProtocolError (List UInt8)} {bytes : List UInt8} :
    Writes [field] bytes ↔ field = .ok bytes := by
  rw [writes_cons_iff]
  constructor
  · rintro ⟨front, back, rfl, hback, rfl⟩
    obtain rfl := (writes_nil_iff back).mp hback
    rw [List.append_nil]
  · rintro rfl
    exact ⟨bytes, [], rfl, (writes_nil_iff []).mpr rfl, (List.append_nil bytes).symm⟩

/-- A layout of two fields writes one behind the other. -/
theorem writes_pair_iff {first second : Except ProtocolError (List UInt8)} {bytes : List UInt8} :
    Writes [first, second] bytes ↔
      ∃ front back, first = .ok front ∧ second = .ok back ∧ bytes = front ++ back := by
  rw [writes_cons_iff]
  simp only [writes_singleton_iff]

/-- Two layouts are written one behind the other. -/
theorem writes_append_iff {first second : Layout} {bytes : List UInt8} :
    Writes (first ++ second) bytes ↔
      ∃ front back, Writes first front ∧ Writes second back ∧ bytes = front ++ back := by
  induction first generalizing bytes with
  | nil => simp [writes_nil_iff]
  | cons field fields ih =>
    rw [List.cons_append, writes_cons_iff]
    constructor
    · rintro ⟨front, _, rfl, hrest, rfl⟩
      obtain ⟨middle, back, hmiddle, hback, rfl⟩ := ih.mp hrest
      exact ⟨front ++ middle, back, writes_cons_iff.mpr ⟨front, middle, rfl, hmiddle, rfl⟩, hback,
        by simp⟩
    · rintro ⟨_, back, hfirst, hback, rfl⟩
      obtain ⟨front, middle, rfl, hmiddle, rfl⟩ := writes_cons_iff.mp hfirst
      exact ⟨front, middle ++ back, rfl, ih.mpr ⟨middle, back, hmiddle, hback, rfl⟩, by simp⟩

/-- Layouts one behind the other write their bytes one behind the other. -/
theorem writes_flatMap_iff {α : Type} (f : α → Layout) {items : List α} {bytes : List UInt8} :
    Writes (items.flatMap f) bytes ↔
      ∃ parts, List.Forall₂ (fun item part => (f item).Writes part) items parts ∧
        bytes = parts.flatten := by
  induction items generalizing bytes with
  | nil => simp [writes_nil_iff, List.forall₂_nil_left_iff]
  | cons item items ih =>
    rw [List.flatMap_cons, writes_append_iff]
    constructor
    · rintro ⟨front, back, hitem, hrest, rfl⟩
      obtain ⟨parts, hparts, rfl⟩ := ih.mp hrest
      exact ⟨front :: parts, .cons hitem hparts, by simp⟩
    · rintro ⟨parts, hparts, rfl⟩
      cases hparts with
      | cons hitem hparts =>
        exact ⟨_, _, hitem, ih.mpr ⟨_, hparts, rfl⟩, by simp⟩

end Layout

/-! ### Single fields -/

/-- A value field is the encoding of its value. -/
theorem valueField_eq_ok_iff {value : Value} {bytes : List UInt8} :
    valueField value = .ok bytes ↔ value.encode = .ok bytes := by
  unfold valueField
  cases value.encode <;> simp

/-- A count field is one byte, if the count fits into it. -/
theorem countField_eq_ok_iff {items : String} {count : Nat} {bytes : List UInt8} :
    countField items count = .ok bytes ↔ count < 256 ∧ bytes = [UInt8.ofNat count] := by
  unfold countField
  split
  · rename_i hcount
    rw [Except.ok.injEq, eq_comm]
    exact (and_iff_right hcount).symm
  · rename_i hcount
    exact iff_of_false (by simp) fun h => hcount h.1

/-- Counted items are written as their count and the items one behind the other. -/
theorem Layout.writes_counted_iff {α : Type} (name : String) (f : α → Layout) {items : List α}
    {bytes : List UInt8} :
    Layout.Writes (countField name items.length :: items.flatMap f) bytes ↔ items.length < 256 ∧
      ∃ parts, List.Forall₂ (fun item part => (f item).Writes part) items parts ∧
        bytes = UInt8.ofNat items.length :: parts.flatten := by
  rw [writes_cons_iff]
  simp only [countField_eq_ok_iff, writes_flatMap_iff]
  constructor
  · rintro ⟨front, back, ⟨hcount, rfl⟩, ⟨parts, hparts, rfl⟩, rfl⟩
    exact ⟨hcount, parts, hparts, rfl⟩
  · rintro ⟨hcount, parts, hparts, rfl⟩
    exact ⟨_, _, ⟨hcount, rfl⟩, ⟨parts, hparts, rfl⟩, rfl⟩

/-- A short text field is the length and the text, if the length fits into a byte. -/
theorem shortTextField_eq_ok_iff {field text : String} {bytes : List UInt8} :
    shortTextField field text = .ok bytes ↔ (Utf8.encode text).length < 256 ∧
      bytes = UInt8.ofNat (Utf8.encode text).length :: Utf8.encode text := by
  unfold shortTextField
  dsimp only
  split
  · rename_i hsize
    rw [Except.ok.injEq, eq_comm]
    exact (and_iff_right hsize).symm
  · rename_i hsize
    exact iff_of_false (by simp) fun h => hsize h.1

/-- A string field is read as it is written. -/
theorem readStringField_reads (field : String) :
    (readStringField field).Reads fun text spelled => (Value.string text).encode = .ok spelled := by
  refine ((Value.parser_reads.mapError ProtocolError.value).bind_check
    (fun value text => value = .string text) fun value => ?_).congr
      fun text spelled => by simp [Value.Spells]
  cases value with
  | string text =>
    refine (Parser.Reads.pure text).congr fun found spelled => and_congr_left fun _ => ?_
    rw [Value.string.injEq, eq_comm]
  | _ => exact (Parser.Reads.fail _).congr fun found spelled => by simp

/-- An unsigned number of 32 bits is also a signed one of 64 bits. -/
theorem toInt_toInt64 (n : UInt32) : n.toUInt64.toInt64.toInt = n.toNat := by
  have hlt := n.toNat_lt
  have hnat : n.toUInt64.toBitVec.toNat = n.toNat := UInt32.toNat_toUInt64 n
  change n.toUInt64.toBitVec.toInt = n.toNat
  rw [BitVec.toInt_eq_toNat_of_lt (by rw [hnat]; omega), hnat]

/-- A 64 bit integer that is in range stands for a number of 32 bits. -/
theorem toInt64_eq_iff (i : Int64) (n : UInt32) :
    (0 ≤ i.toInt ∧ i.toInt < UInt32.size) ∧ n = UInt32.ofNat i.toInt.toNat ↔
      i = n.toUInt64.toInt64 := by
  rw [← Int64.toInt_inj, toInt_toInt64, ← UInt32.toNat_inj]
  have hlt := n.toNat_lt
  constructor
  · rintro ⟨⟨hpos, hsize⟩, hn⟩
    rw [UInt32.toNat_ofNat_of_lt' (by omega)] at hn
    omega
  · intro hi
    have hsize : i.toInt < UInt32.size := by
      simp only [UInt32.size]
      omega
    refine ⟨⟨by omega, hsize⟩, ?_⟩
    rw [UInt32.toNat_ofNat_of_lt' (by omega)]
    omega

/-- A number of 32 bits is read as the integer that is written for it. -/
theorem readUInt32Field_reads (field : String) :
    (readUInt32Field field).Reads fun n spelled =>
      (Value.integer n.toUInt64.toInt64).encode = .ok spelled := by
  refine ((Value.parser_reads.mapError ProtocolError.value).bind_check
    (fun value n => value = .integer n.toUInt64.toInt64) fun value => ?_).congr
      fun n spelled => by simp [Value.Spells]
  cases value with
  | integer i =>
    dsimp only
    split
    · rename_i hrange
      refine (Parser.Reads.pure _).congr fun n spelled => and_congr_left fun _ => ?_
      rw [Value.integer.injEq, ← toInt64_eq_iff]
      exact (and_iff_right hrange).symm
    · rename_i hrange
      refine (Parser.Reads.fail _).congr fun n spelled => iff_of_false id ?_
      rintro ⟨hvalue, -⟩
      exact hrange ((toInt64_eq_iff i n).mpr (Value.integer.inj hvalue)).1
  | _ => exact (Parser.Reads.fail _).congr fun found spelled => by simp

/-! ### Parts of messages -/

/-- An error of the server is read as it is written. -/
theorem ServerError.parser_reads :
    ServerError.parser.Reads fun error spelled => error.layout.Writes spelled := by
  refine ((readInt32_reads.mapError ProtocolError.value).bind _ fun code =>
    (readShortText_reads.mapError ProtocolError.value).bind_pure (ServerError.mk code)).congr
      fun error spelled => ?_
  simp only [layout, Layout.writes_ok_cons_iff, Layout.writes_singleton_iff,
    shortTextField_eq_ok_iff]
  constructor
  · rintro ⟨code, _, _, rfl, ⟨message, htext, rfl⟩, rfl⟩
    exact ⟨_, htext, rfl⟩
  · rintro ⟨_, htext, rfl⟩
    exact ⟨error.code, _, _, rfl, ⟨error.message, htext, rfl⟩, rfl⟩

/-- A column is read as it is written. -/
theorem Column.parser_reads :
    Column.parser.Reads fun column spelled => column.layout.Writes spelled := by
  refine ((readShortText_reads.mapError ProtocolError.value).bind _ fun name =>
    (readDataType_reads.mapError ProtocolError.value).bind_pure (Column.mk name)).congr
      fun column spelled => ?_
  rw [layout, Layout.writes_pair_iff]
  simp only [shortTextField_eq_ok_iff]
  constructor
  · rintro ⟨name, front, back, htext, ⟨kind, rfl, rfl⟩, rfl⟩
    exact ⟨front, _, htext, rfl, rfl⟩
  · rintro ⟨front, back, htext, hkind, rfl⟩
    exact ⟨column.name, front, back, htext, ⟨column.dataType, (Except.ok.inj hkind).symm, rfl⟩, rfl⟩

/-! ### Events of statements -/

namespace StatementEvent

/-- What may stand behind the state byte of an event: behind that of a row its count and a spelling
of each of its values, and behind any other what its layout writes. -/
def SpellsBody (event : StatementEvent) (body : List UInt8) : Prop :=
  match event with
  | .row values => values.length < 256 ∧ ∃ parts, List.Forall₂ Value.Spells values parts ∧
      body = UInt8.ofNat values.length :: parts.flatten
  | event => event.layout.Writes body

/-- A columns event is spelled by its count and its columns. -/
theorem writes_columns_iff {header : List Column} {body : List UInt8} :
    (columns header).layout.Writes body ↔ header.length < 256 ∧
      ∃ parts, List.Forall₂ (fun column part => column.layout.Writes part) header parts ∧
        body = UInt8.ofNat header.length :: parts.flatten :=
  Layout.writes_counted_iff "columns" Column.layout

/-- A row is written as its count and its values. -/
theorem writes_row_iff {values : List Value} {body : List UInt8} :
    (row values).layout.Writes body ↔ values.length < 256 ∧
      ∃ parts, List.Forall₂ (fun value part => value.encode = .ok part) values parts ∧
        body = UInt8.ofNat values.length :: parts.flatten := by
  rw [layout, List.map_eq_flatMap, Layout.writes_counted_iff]
  simp only [Layout.writes_singleton_iff, valueField_eq_ok_iff]

/-- What the layout of an event writes is the spelling of its body. -/
theorem spellsBody_of_writes {event : StatementEvent} {body : List UInt8}
    (h : event.layout.Writes body) : event.SpellsBody body := by
  cases event with
  | row values =>
    obtain ⟨hcount, parts, hparts, rfl⟩ := writes_row_iff.mp h
    exact ⟨hcount, parts, hparts.imp fun value part hpart => .inl hpart, rfl⟩
  | _ => exact h

/-- Counted items are spelled by their count and a spelling of each of them. -/
theorem counted_reads {α : Type} {item : Parser ProtocolError α} {Spells : α → List UInt8 → Prop}
    (h : item.Reads Spells) (make : List α → StatementEvent) :
    (do
      let count ← part readByte
      return make (← item.replicate count.toNat) : Parser ProtocolError StatementEvent).Reads
      fun event body => ∃ items : List α, event = make items ∧ items.length < 256 ∧
        ∃ parts, List.Forall₂ Spells items parts ∧
          body = UInt8.ofNat items.length :: parts.flatten := by
  refine ((readByte_reads.mapError ProtocolError.value).bind _ fun count =>
    (h.replicate count.toNat).bind_pure make).congr fun event body => ?_
  constructor
  · rintro ⟨count, _, _, rfl, ⟨items, ⟨hlength, parts, hparts, rfl⟩, rfl⟩, rfl⟩
    refine ⟨items, rfl, by rw [hlength]; exact count.toNat_lt, parts, hparts, ?_⟩
    rw [hlength, UInt8.ofNat_toNat, List.singleton_append]
  · rintro ⟨items, rfl, hlength, parts, hparts, rfl⟩
    exact ⟨UInt8.ofNat items.length, _, _, rfl,
      ⟨items, ⟨(UInt8.toNat_ofNat_of_lt' hlength).symm, parts, hparts, rfl⟩, rfl⟩, rfl⟩

/-- An event is spelled by its state byte and what may stand behind it. -/
theorem parser_reads : parser.Reads fun event spelled =>
    ∃ body, event.SpellsBody body ∧ spelled = event.state :: body := by
  refine ((readByte_reads.mapError ProtocolError.value).bind
    (fun tag event body => event.state = tag ∧ event.SpellsBody body) fun tag => ?_).congr
      fun event spelled => ?_
  · split
    · refine (counted_reads Column.parser_reads columns).congr fun event body => ?_
      cases event <;> simp [state, SpellsBody, writes_columns_iff]
    · refine (counted_reads (Value.parser_reads.mapError ProtocolError.value) row).congr
        fun event body => ?_
      cases event <;> simp [state, SpellsBody]
    · refine (Parser.Reads.pure abort).congr fun event body => ?_
      cases event <;> simp [state, SpellsBody, layout, Layout.writes_nil_iff]
    · refine (ServerError.parser_reads.bind_pure error).congr fun event body => ?_
      cases event <;> simp [state, SpellsBody, layout]
    · rename_i hcolumns hrow habort herror
      refine (Parser.Reads.fail _).congr fun event body => iff_of_false id ?_
      rintro ⟨rfl, -⟩
      cases event with
      | columns header => exact hcolumns rfl
      | row values => exact hrow rfl
      | abort => exact habort rfl
      | error reason => exact herror rfl
  · constructor
    · rintro ⟨state, _, body, rfl, ⟨rfl, hbody⟩, rfl⟩
      exact ⟨body, hbody, rfl⟩
    · rintro ⟨body, hbody, rfl⟩
      exact ⟨event.state, _, body, rfl, ⟨rfl, hbody⟩, rfl⟩

end StatementEvent

/-! ### Whole messages -/

namespace Message

/-- The encoding of a message is what its layout writes. -/
theorem encode_eq_ok_iff {message : Message} {bytes : List UInt8} :
    message.encode = .ok bytes ↔ message.layout.Writes bytes := by
  unfold encode Layout.Writes
  cases message.layout.refusal? with
  | none => simp [eq_comm]
  | some reason => simp

/-- The bytes that a message may be read from: what is written for it, except that the values of a
row may be spelled in any way. -/
def Spells (message : Message) (spelled : List UInt8) : Prop :=
  match message with
  | .statementResponse response => ∃ body, response.event.SpellsBody body ∧
      spelled = Bytes.ofNat 4 response.id.toNat ++ response.event.state :: body
  | message => message.encode = .ok spelled

/-- What is written for a message is one of its spellings. -/
theorem spells_of_encode {message : Message} {bytes : List UInt8}
    (h : message.encode = .ok bytes) : message.Spells bytes := by
  cases message with
  | statementResponse response =>
    rw [encode_eq_ok_iff, layout, Layout.writes_ok_cons_iff] at h
    obtain ⟨_, hwrites, rfl⟩ := h
    obtain ⟨body, hbody, rfl⟩ := Layout.writes_ok_cons_iff.mp hwrites
    exact ⟨body, StatementEvent.spellsBody_of_writes hbody, rfl⟩
  | _ => exact h

/-- A connect request is read as it is written. -/
theorem connectRequest_reads : ConnectRequest.parser.Reads fun request spelled =>
    (connectRequest request).encode = .ok spelled := by
  refine ((readStringField_reads "url").bind _ fun url =>
    (readStringField_reads "application").bind_pure (ConnectRequest.mk url)).congr
      fun request spelled => ?_
  rw [encode_eq_ok_iff, layout, Layout.writes_pair_iff]
  simp only [valueField_eq_ok_iff]
  constructor
  · rintro ⟨url, front, back, hurl, ⟨application, happlication, rfl⟩, rfl⟩
    exact ⟨front, back, hurl, happlication, rfl⟩
  · rintro ⟨front, back, hurl, happlication, rfl⟩
    exact ⟨request.url, front, back, hurl, ⟨request.application, happlication, rfl⟩, rfl⟩

/-- A statement request is read as it is written. -/
theorem statementRequest_reads : StatementRequest.parser.Reads fun request spelled =>
    (statementRequest request).encode = .ok spelled := by
  refine ((readUInt32Field_reads "id").bind _ fun id =>
    (readStringField_reads "script").bind _ fun script =>
      (readUInt32Field_reads "timeout").bind_pure (StatementRequest.mk id script)).congr
        fun request spelled => ?_
  rw [encode_eq_ok_iff, layout, Layout.writes_cons_iff]
  simp only [Layout.writes_pair_iff, valueField_eq_ok_iff]
  constructor
  · rintro ⟨id, front, _, hid, ⟨script, middle, back, hscript, ⟨timeout, htimeout, rfl⟩, rfl⟩, rfl⟩
    exact ⟨front, _, hid, ⟨middle, back, hscript, htimeout, rfl⟩, rfl⟩
  · rintro ⟨front, _, hid, ⟨middle, back, hscript, htimeout, rfl⟩, rfl⟩
    exact ⟨request.id, front, _, hid,
      ⟨request.script, middle, back, hscript, ⟨request.timeout, htimeout, rfl⟩, rfl⟩, rfl⟩

/-- A connect response is read as it is written. -/
theorem connectResponse_reads : ConnectResponse.parser.Reads fun response spelled =>
    (connectResponse response).encode = .ok spelled := by
  refine ((readByte_reads.mapError ProtocolError.value).bind
    (fun status response body => (connectResponse response).encode = .ok (status :: body))
      fun status => ?_).congr fun response spelled => ?_
  · split
    · refine (Parser.Reads.pure ConnectResponse.accepted).congr fun response body => ?_
      rw [encode_eq_ok_iff]
      cases response <;> simp [layout, Layout.writes_ok_cons_iff, Layout.writes_nil_iff]
    · refine (ServerError.parser_reads.bind_pure ConnectResponse.rejected).congr
        fun response body => ?_
      rw [encode_eq_ok_iff]
      cases response <;> simp [layout, Layout.writes_ok_cons_iff, Layout.writes_nil_iff]
    · refine (Parser.Reads.fail _).congr fun response body => ?_
      rw [encode_eq_ok_iff]
      cases response <;> simp_all [layout, Layout.writes_ok_cons_iff, Layout.writes_nil_iff]
  · constructor
    · rintro ⟨status, _, body, rfl, hbody, rfl⟩
      exact hbody
    · intro h
      have hwrites := encode_eq_ok_iff.mp h
      cases response with
      | accepted =>
        obtain rfl := Except.ok.inj (Layout.writes_singleton_iff.mp hwrites)
        exact ⟨0, [0], [], rfl, h, rfl⟩
      | rejected error =>
        obtain ⟨body, -, rfl⟩ := Layout.writes_ok_cons_iff.mp hwrites
        exact ⟨1, [1], body, rfl, h, rfl⟩

/-- A statement response is read from all of its spellings. -/
theorem statementResponse_reads : StatementResponse.parser.Reads fun response spelled =>
    (statementResponse response).Spells spelled := by
  refine ((readUInt32_reads.mapError ProtocolError.value).bind _ fun id =>
    StatementEvent.parser_reads.bind_pure (StatementResponse.mk id)).congr
      fun response spelled => ?_
  constructor
  · rintro ⟨id, _, _, rfl, ⟨event, ⟨body, hbody, rfl⟩, rfl⟩, rfl⟩
    exact ⟨body, hbody, rfl⟩
  · rintro ⟨body, hbody, rfl⟩
    exact ⟨response.id, _, _, rfl, ⟨response.event, ⟨body, hbody, rfl⟩, rfl⟩, rfl⟩

/-- Reading a message of a kind is reading a spelling of it. A ping is there without reading. -/
theorem parser_reads {kind : MessageKind} (hkind : kind ≠ .ping) :
    (parser kind).Reads fun message spelled => message.kind = kind ∧ message.Spells spelled := by
  cases kind with
  | connectRequest =>
    refine (connectRequest_reads.map connectRequest).congr fun message spelled => ?_
    cases message <;> simp [Message.kind, Spells]
  | connectResponse =>
    refine (connectResponse_reads.map connectResponse).congr fun message spelled => ?_
    cases message <;> simp [Message.kind, Spells]
  | statementRequest =>
    refine (statementRequest_reads.map statementRequest).congr fun message spelled => ?_
    cases message <;> simp [Message.kind, Spells]
  | statementResponse =>
    refine (statementResponse_reads.map statementResponse).congr fun message spelled => ?_
    cases message <;> simp [Message.kind, Spells]
  | ping => exact absurd rfl hkind

end Message

end BeeProtocol
