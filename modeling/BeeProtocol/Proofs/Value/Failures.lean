import BeeProtocol.Proofs.Value.Cursor

/-!
# Why a value cannot be read

A read fails in three ways. The tag is unknown, a whole text is ill-formed, or the bytes end too
early. The first two are seen in the bytes that are there, so they stand whatever bytes follow. A
beginning of a value's bytes can therefore only fail in the third way.
-/

namespace BeeProtocol

/-! ### Parts that fail at the end of the bytes only -/

/-- The only reason for failure is that the bytes end. -/
def Parser.NeedsMore {α : Type} (parser : Parser ValueError α) : Prop :=
  ∀ bytes reason, parser bytes = .error reason → reason = .unexpectedEnd

namespace Parser.NeedsMore

variable {α β : Type}

/-- A parser that reads nothing never fails for want of bytes. -/
theorem pure (item : α) : (pure item : Parser ValueError α).NeedsMore := by
  intro bytes reason h
  cases h

/-- Parsers one after another need more bytes when one of them does. -/
theorem bind {parser : Parser ValueError α} (h : parser.NeedsMore)
    {next : α → Parser ValueError β} (hnext : ∀ item, (next item).NeedsMore) :
    (parser >>= next).NeedsMore := by
  intro bytes reason hread
  rcases bind_eq_error_iff.mp hread with hfirst | ⟨item, rest, -, hsecond⟩
  · exact h bytes reason hfirst
  · exact hnext item rest reason hsecond

/-- A change of the result leaves what a parser needs. -/
theorem map (f : α → β) {parser : Parser ValueError α} (h : parser.NeedsMore) :
    (f <$> parser).NeedsMore := by
  rw [map_eq_pure_bind]
  exact h.bind fun item => pure (f item)

end Parser.NeedsMore

/-- Bytes can only fail to be there. -/
theorem readBytes_needsMore (count : Nat) : (readBytes count).NeedsMore := by
  intro bytes reason h
  unfold readBytes at h
  cases hsplit : Bytes.split? count bytes <;> simp_all

/-- A number can only fail to be there. -/
theorem readNat_needsMore (width : Nat) : (readNat width).NeedsMore :=
  (readBytes_needsMore width).map Bytes.toNat

/-- A byte can only fail to be there. -/
theorem readByte_needsMore : readByte.NeedsMore := (readNat_needsMore 1).map UInt8.ofNat

/-- A parser that fails only for want of bytes is firm. -/
theorem Parser.NeedsMore.firm {α : Type} {parser : Parser ValueError α}
    {Spells : α → List UInt8 → Prop} (h : parser.NeedsMore) (hreads : parser.Reads Spells) :
    parser.Firm .unexpectedEnd where
  ok _ _ _ more hread := hreads.append hread more
  error bytes reason _ hread hreason := absurd (h bytes reason hread) hreason

/-- More bytes do not change the number that is read. -/
theorem readNat_firm (width : Nat) : (readNat width).Firm .unexpectedEnd :=
  (readNat_needsMore width).firm (readNat_reads width)

/-- More bytes do not change the byte that is read. -/
theorem readByte_firm : readByte.Firm .unexpectedEnd := readByte_needsMore.firm readByte_reads

/-! ### Unknown tags -/

/-- Exactly the tags above 5 are unknown. -/
theorem DataType.ofTag?_eq_none_iff (tag : UInt8) : ofTag? tag = none ↔ 5 < tag := by
  constructor
  · intro h
    unfold ofTag? at h
    split at h <;> cases h
    rename_i h0 h1 h2 h3 h4 h5
    grind
  · intro h
    rw [Option.eq_none_iff_forall_ne_some]
    intro kind hkind
    obtain rfl := (ofTag?_eq_some_iff tag kind).mp hkind
    revert h
    cases kind <;> decide

/-- The kind of a value cannot be read if its tag is unknown or missing. -/
theorem reason_of_readDataType {bytes : List UInt8} {reason : ValueError}
    (h : readDataType bytes = .error reason) :
    reason = .unexpectedEnd ∨
      ∃ tag rest, bytes = tag :: rest ∧ 5 < tag ∧ reason = .unknownType tag := by
  rcases Parser.bind_eq_error_iff.mp h with hbyte | ⟨tag, rest, hbyte, hcheck⟩
  · exact .inl (readByte_needsMore bytes reason hbyte)
  · obtain ⟨_, rfl, rfl⟩ := (readByte_reads bytes tag rest).mp hbyte
    cases hkind : DataType.ofTag? tag with
    | some kind => rw [hkind] at hcheck; cases hcheck
    | none =>
      rw [hkind] at hcheck
      exact .inr ⟨tag, rest, rfl, (DataType.ofTag?_eq_none_iff tag).mp hkind,
        (Except.error.inj hcheck).symm⟩

/-- More bytes do not change the type that is read. -/
theorem readDataType_firm : readDataType.Firm .unexpectedEnd := by
  refine readByte_firm.bind fun tag => ?_
  cases DataType.ofTag? tag with
  | some kind => exact .pure kind
  | none => exact .fail _

namespace Value

/-- A value with an unknown tag cannot be read. -/
theorem parser_of_unknownTag {tag : UInt8} (h : 5 < tag) (rest : List UInt8) :
    parser (tag :: rest) = .error (.unknownType tag) := by
  have hbyte := (readByte_reads (tag :: rest) tag rest).mpr ⟨[tag], rfl, rfl⟩
  have hkind := (DataType.ofTag?_eq_none_iff tag).mpr h
  rw [parser, Parser.bind_apply, readDataType, Parser.bind_apply, hbyte]
  simp only [hkind, Parser.fail]

/-! ### Ill-formed texts -/

/-- The bytes begin with a value that is a text of the given bytes, whether or not they are
UTF-8. -/
def HoldsText (bytes text : List UInt8) : Prop :=
  text.length < UInt32.size ∧
    ∃ rest, bytes = DataType.string.tag :: (Bytes.ofNat 4 text.length ++ (text ++ rest))

/-- What the bytes hold does not depend on what follows. -/
theorem HoldsText.append {bytes text : List UInt8} (h : HoldsText bytes text)
    (more : List UInt8) : HoldsText (bytes ++ more) text := by
  obtain ⟨hsize, rest, rfl⟩ := h
  refine ⟨hsize, rest ++ more, ?_⟩
  simp only [List.cons_append, List.append_assoc]

/-- A text is read once its length and its bytes are there. -/
theorem parser_of_holdsText {bytes text : List UInt8} (h : HoldsText bytes text) :
    ∃ rest, parser bytes =
      match Utf8.decode text with
      | .ok spelled => .ok (string spelled, rest)
      | .error fault => .error (.invalidText fault.message) := by
  obtain ⟨hsize, rest, rfl⟩ := h
  have hkind (body : List UInt8) :
      readDataType (DataType.string.tag :: body) = .ok (.string, body) :=
    (readDataType_reads _ _ _).mpr ⟨_, rfl, rfl⟩
  have hcount := (readNat_reads 4 _ text.length (text ++ rest)).mpr ⟨_, ⟨rfl, hsize⟩, rfl⟩
  have hbytes := (readBytes_reads text.length _ text rest).mpr ⟨_, ⟨rfl, rfl⟩, rfl⟩
  refine ⟨rest, ?_⟩
  rw [parser, Parser.bind_apply, hkind]
  dsimp only [bodyParser]
  rw [Parser.bind_apply, hcount]
  dsimp only
  rw [Parser.bind_apply, readText, Parser.bind_apply, hbytes]
  dsimp only
  cases Utf8.decode text <;> rfl

/-- A text that cannot be read is not there to its end, or it is ill-formed. -/
theorem reason_of_readText {count : Nat} {bytes : List UInt8} {reason : ValueError}
    (h : readText count bytes = .error reason) :
    reason = .unexpectedEnd ∨
      ∃ text rest fault, bytes = text ++ rest ∧ text.length = count ∧
        Utf8.decode text = .error fault ∧ reason = .invalidText fault.message := by
  rcases Parser.bind_eq_error_iff.mp h with hbytes | ⟨item, rest, hbytes, hcheck⟩
  · exact .inl (readBytes_needsMore count bytes reason hbytes)
  · obtain ⟨text, ⟨rfl, hcount⟩, rfl⟩ := (readBytes_reads count bytes item rest).mp hbytes
    cases hdecode : Utf8.decode text with
    | ok spelled => rw [hdecode] at hcheck; cases hcheck
    | error fault =>
      rw [hdecode] at hcheck
      exact .inr ⟨text, rest, fault, rfl, hcount, hdecode, (Except.error.inj hcheck).symm⟩

/-- More bytes do not change the text that is read. -/
theorem readText_firm (count : Nat) : (readText count).Firm .unexpectedEnd where
  ok _ _ _ more hread := (readText_reads count).append hread more
  error bytes reason more hread hreason := by
    obtain ⟨text, rest, fault, rfl, rfl, hfault, rfl⟩ :=
      (reason_of_readText hread).resolve_left hreason
    have hbytes : readBytes text.length (text ++ rest ++ more) = .ok (text, rest ++ more) :=
      (readBytes_reads text.length _ text _).mpr ⟨text, ⟨rfl, rfl⟩, List.append_assoc ..⟩
    rw [readText, Parser.bind_apply, hbytes]
    dsimp only
    rw [hfault]
    rfl

/-- More bytes do not change the short text that is read. -/
theorem readShortText_firm : readShortText.Firm .unexpectedEnd :=
  readByte_firm.bind fun count => readText_firm count.toNat

/-- The body of a value of a known kind cannot be read if its bytes end, or if they hold a text that
is ill-formed. -/
theorem reason_of_bodyParser {kind : DataType} {bytes : List UInt8} {reason : ValueError}
    (h : bodyParser kind bytes = .error reason) :
    reason = .unexpectedEnd ∨
      ∃ text fault, HoldsText (kind.tag :: bytes) text ∧ Utf8.decode text = .error fault ∧
        reason = .invalidText fault.message := by
  cases kind with
  | string =>
    rcases Parser.bind_eq_error_iff.mp h with hcount | ⟨count, rest, hcount, htext⟩
    · exact .inl (readNat_needsMore 4 bytes reason hcount)
    · obtain ⟨_, ⟨rfl, hsize⟩, rfl⟩ := (readNat_reads 4 bytes count rest).mp hcount
      rcases Parser.bind_eq_error_iff.mp htext with hshort | ⟨_, _, -, hdone⟩
      · rcases reason_of_readText hshort with hend | ⟨text, rest, fault, rfl, rfl, hfault, hreason⟩
        · exact .inl hend
        · exact .inr ⟨text, fault, ⟨hsize, rest, rfl⟩, hfault, hreason⟩
      · cases hdone
  | nil => exact .inl (Parser.NeedsMore.pure _ bytes reason h)
  | integer =>
    have hinteger : readInt64.NeedsMore := (readNat_needsMore 8).map _
    exact .inl (hinteger.bind (fun _ => .pure _) bytes reason h)
  | number =>
    have hnumber : readBinary64.NeedsMore := (readNat_needsMore 8).map _
    exact .inl (hnumber.bind (fun _ => .pure _) bytes reason h)
  | boolean => exact .inl (readByte_needsMore.bind (fun _ => .pure _) bytes reason h)
  | bytes =>
    refine .inl ((readNat_needsMore 4).bind (fun count => ?_) bytes reason h)
    exact (readBytes_needsMore count).bind fun _ => .pure _

/-! ### Values -/

/-- A value cannot be read if its tag is unknown, if it is a text that is ill-formed, or if its
bytes end. -/
theorem reason_of_failure {bytes : List UInt8} {reason : ValueError}
    (h : parser bytes = .error reason) :
    reason = .unexpectedEnd ∨
      (∃ tag rest, bytes = tag :: rest ∧ 5 < tag ∧ reason = .unknownType tag) ∨
      ∃ text fault, HoldsText bytes text ∧ Utf8.decode text = .error fault ∧
        reason = .invalidText fault.message := by
  rcases Parser.bind_eq_error_iff.mp h with hkind | ⟨kind, rest, hkind, hbody⟩
  · rcases reason_of_readDataType hkind with hend | hunknown
    · exact .inl hend
    · exact .inr (.inl hunknown)
  · obtain ⟨_, rfl, rfl⟩ := (readDataType_reads bytes kind rest).mp hkind
    rcases reason_of_bodyParser hbody with hend | hill
    · exact .inl hend
    · exact .inr (.inr hill)

/-- A tag is reported as unknown exactly if it is there and unknown. -/
theorem parser_eq_unknownType_iff {bytes : List UInt8} {tag : UInt8} :
    parser bytes = .error (.unknownType tag) ↔ bytes.head? = some tag ∧ 5 < tag := by
  rw [List.head?_eq_some_iff]
  constructor
  · intro h
    rcases reason_of_failure h with hend | ⟨found, rest, rfl, hfound, hreason⟩ |
      ⟨text, fault, -, -, hreason⟩
    · cases hend
    · obtain rfl := ValueError.unknownType.inj hreason
      exact ⟨⟨rest, rfl⟩, hfound⟩
    · cases hreason
  · rintro ⟨⟨rest, rfl⟩, htag⟩
    exact parser_of_unknownTag htag rest

/-- A text is reported as ill-formed exactly if it is there as a whole and ill-formed. -/
theorem parser_eq_invalidText_iff {bytes : List UInt8} {reason : String} :
    parser bytes = .error (.invalidText reason) ↔
      ∃ text fault, HoldsText bytes text ∧ Utf8.decode text = .error fault ∧
        reason = fault.message := by
  constructor
  · intro h
    rcases reason_of_failure h with hend | ⟨found, rest, -, -, hreason⟩ |
      ⟨text, fault, htext, hfault, hreason⟩
    · cases hend
    · cases hreason
    · exact ⟨text, fault, htext, hfault, ValueError.invalidText.inj hreason⟩
  · rintro ⟨text, fault, htext, hfault, rfl⟩
    obtain ⟨rest, hparse⟩ := parser_of_holdsText htext
    rw [hparse, hfault]

/-- A failure other than the end of the bytes stands whatever follows them. -/
theorem parser_append_of_error {bytes : List UInt8} {reason : ValueError}
    (h : parser bytes = .error reason) (hreason : reason ≠ .unexpectedEnd) (more : List UInt8) :
    parser (bytes ++ more) = .error reason := by
  rcases reason_of_failure h with hend | ⟨tag, rest, rfl, htag, rfl⟩ |
    ⟨text, fault, htext, hfault, rfl⟩
  · exact absurd hend hreason
  · exact parser_of_unknownTag htag (rest ++ more)
  · exact parser_eq_invalidText_iff.mpr ⟨text, fault, htext.append more, hfault, rfl⟩

/-- More bytes do not change the value that is read. -/
theorem parser_firm : parser.Firm .unexpectedEnd where
  ok _ _ _ more hread := parser_reads.append hread more
  error _ _ more hread hreason := parser_append_of_error hread hreason more

/-- A strict beginning of a value's bytes ends too early. -/
theorem parser_of_strictPrefix {value : Value} {spelled bytes : List UInt8}
    (hvalue : value.encode = .ok spelled) (hbegins : bytes <+: spelled)
    (hstrict : bytes ≠ spelled) : parser bytes = .error .unexpectedEnd := by
  obtain ⟨missing, rfl⟩ := hbegins
  have hwhole := (parser_reads _ value []).mpr ⟨_, .inl hvalue, (List.append_nil _).symm⟩
  refine parser_firm.eq_shortage (fun hmissing => hstrict ?_) hwhole
  rw [hmissing, List.append_nil]

/-- The first `count` bytes are a value: they are what is written for it, or they are the tag of a
boolean and a byte other than 1, which is read as false. -/
def IsFront (bytes : List UInt8) (value : Value) (count : Nat) : Prop :=
  count ≤ bytes.length ∧
    (value.encode = .ok (bytes.take count) ∨
      count = 2 ∧ value = boolean false ∧ ∃ body : UInt8, body ≠ 1 ∧ bytes.take count = [4, body])

/-- The value at the front is what is spelled there. -/
theorem isFront_iff {bytes : List UInt8} {value : Value} {count : Nat} :
    IsFront bytes value count ↔
      ∃ spelled rest, value.Spells spelled ∧ bytes = spelled ++ rest ∧ spelled.length = count := by
  constructor
  · rintro ⟨hcount, hspelled⟩
    refine ⟨bytes.take count, bytes.drop count, ?_, (List.take_append_drop count bytes).symm,
      List.length_take_of_le hcount⟩
    rcases hspelled with hencode | ⟨-, hfalse, body, hbody, htake⟩
    · exact .inl hencode
    · exact .inr ⟨hfalse, body, hbody, htake⟩
  · rintro ⟨spelled, rest, hspelled, rfl, rfl⟩
    refine ⟨by simp, ?_⟩
    rw [List.take_left]
    rcases hspelled with hencode | ⟨hfalse, body, hbody, rfl⟩
    · exact .inl hencode
    · exact .inr ⟨rfl, hfalse, body, hbody, rfl⟩

/-- Without a value at the front, the read fails. -/
theorem exists_parser_eq_error_iff {bytes : List UInt8} :
    (∃ reason, parser bytes = .error reason) ↔ ∀ value count, ¬ IsFront bytes value count := by
  constructor
  · rintro ⟨reason, hreason⟩ value count hfront
    obtain ⟨spelled, rest, hspelled, hbytes, -⟩ := isFront_iff.mp hfront
    rw [(parser_reads bytes value rest).mpr ⟨spelled, hspelled, hbytes⟩] at hreason
    cases hreason
  · intro hnone
    cases hparse : parser bytes with
    | error reason => exact ⟨reason, rfl⟩
    | ok result =>
      obtain ⟨value, rest⟩ := result
      obtain ⟨spelled, hspelled, hbytes⟩ := (parser_reads bytes value rest).mp hparse
      exact absurd (isFront_iff.mpr ⟨spelled, rest, hspelled, hbytes, rfl⟩) (hnone value _)

/-- The read fails with the end of the bytes exactly if there is no value at the front and neither
an unknown tag nor a whole text that is ill-formed. -/
theorem parser_eq_unexpectedEnd_iff {bytes : List UInt8} :
    parser bytes = .error .unexpectedEnd ↔
      (∀ value count, ¬ IsFront bytes value count) ∧
        (∀ tag, ¬ (bytes.head? = some tag ∧ 5 < tag)) ∧
        ∀ text, HoldsText bytes text → ∃ spelled, text = Utf8.encode spelled := by
  rw [← exists_parser_eq_error_iff]
  constructor
  · intro h
    refine ⟨⟨_, h⟩, ?_, ?_⟩
    · intro tag htag
      rw [parser_eq_unknownType_iff.mpr htag] at h
      cases h
    · intro text htext
      cases hdecode : Utf8.decode text with
      | ok spelled => exact ⟨spelled, (Utf8.decode_eq_ok_iff text spelled).mp hdecode⟩
      | error fault =>
        rw [parser_eq_invalidText_iff.mpr ⟨text, fault, htext, hdecode, rfl⟩] at h
        cases h
  · rintro ⟨⟨reason, h⟩, hknown, hwellFormed⟩
    rcases reason_of_failure h with
      hend | ⟨tag, rest, rfl, htag, -⟩ | ⟨text, fault, htext, hfault, -⟩
    · rw [h, hend]
    · exact absurd ⟨rfl, htag⟩ (hknown tag)
    · obtain ⟨spelled, hspelled⟩ := hwellFormed text htext
      rw [(Utf8.decode_eq_ok_iff text spelled).mpr hspelled] at hfault
      cases hfault

/-- A cursor reads `value` and moves by `count` exactly if the value is the next `count` bytes.
Otherwise it stays, and the failure is an unknown tag if the next byte is above 5, an ill-formed
text if a whole text comes next that is not UTF-8, and the end of the bytes in all other cases. In
front of a strict beginning of a value's bytes it is the end of the bytes. -/
theorem readsExactly (cursor : Cursor) :
    (∀ value count, (∃ next, cursor.read parser = (.ok value, next) ∧
        cursor.Advances count next) ↔ IsFront cursor.rest value count) ∧
    ((∀ value count, ¬ IsFront cursor.rest value count) →
      ∃ reason, cursor.read parser = (.error reason, cursor)) ∧
    (∀ tag, cursor.read parser = (.error (.unknownType tag), cursor) ↔
      cursor.rest.head? = some tag ∧ 5 < tag) ∧
    ((∃ reason, cursor.read parser = (.error (.invalidText reason), cursor)) ↔
      ∃ text, HoldsText cursor.rest text ∧ ∀ spelled, text ≠ Utf8.encode spelled) ∧
    (∀ text fault, HoldsText cursor.rest text → Utf8.decode text = .error fault →
      cursor.read parser = (.error (.invalidText fault.message), cursor)) ∧
    (cursor.read parser = (.error .unexpectedEnd, cursor) ↔
      (∀ value count, ¬ IsFront cursor.rest value count) ∧
        (∀ tag, ¬ (cursor.rest.head? = some tag ∧ 5 < tag)) ∧
        ∀ text, HoldsText cursor.rest text → ∃ spelled, text = Utf8.encode spelled) ∧
    ∀ (value : Value) (spelled : List UInt8), value.encode = .ok spelled →
      cursor.rest <+: spelled → cursor.rest ≠ spelled →
        cursor.read parser = (.error .unexpectedEnd, cursor) := by
  have hfails (reason : ValueError) :
      cursor.read parser = (.error reason, cursor) ↔ parser cursor.rest = .error reason := by
    rw [Cursor.read_eq_error_iff]
    exact and_iff_left rfl
  simp only [hfails]
  refine ⟨?_, exists_parser_eq_error_iff.mpr, fun _ => parser_eq_unknownType_iff, ?_, ?_,
    parser_eq_unexpectedEnd_iff, fun _ _ => parser_of_strictPrefix⟩
  · intro value count
    simp only [Cursor.read_eq_ok_iff parser_reads, isFront_iff]
    constructor
    · rintro ⟨next, ⟨spelled, rest, hspelled, hrest, hnext⟩, hcount⟩
      exact ⟨spelled, rest, hspelled, hrest, hnext.count_eq hcount⟩
    · rintro ⟨spelled, rest, hspelled, hrest, rfl⟩
      obtain ⟨next, hnext⟩ := cursor.exists_advances hrest
      exact ⟨next, ⟨spelled, rest, hspelled, hrest, hnext⟩, hnext⟩
  · simp only [parser_eq_invalidText_iff]
    constructor
    · rintro ⟨-, text, fault, htext, hfault, rfl⟩
      refine ⟨text, htext, fun spelled hspelled => ?_⟩
      rw [(Utf8.decode_eq_ok_iff text spelled).mpr hspelled] at hfault
      cases hfault
    · rintro ⟨text, htext, hill⟩
      cases hdecode : Utf8.decode text with
      | ok spelled => exact absurd ((Utf8.decode_eq_ok_iff text spelled).mp hdecode) (hill spelled)
      | error fault => exact ⟨_, text, fault, htext, hdecode, rfl⟩
  · intro text fault htext hfault
    exact parser_eq_invalidText_iff.mpr ⟨text, fault, htext, hfault, rfl⟩

/-- A text is checked once its last byte is there, and not before. -/
example :
    (Cursor.ofList [1, 0, 0, 0, 2, 0xFF]).read parser =
        (.error .unexpectedEnd, Cursor.ofList [1, 0, 0, 0, 2, 0xFF]) ∧
      (Cursor.ofList [1, 0, 0, 0, 1, 0xFF]).read parser =
        (.error (.invalidText "invalid utf-8 sequence of 1 bytes from index 0"),
          Cursor.ofList [1, 0, 0, 0, 1, 0xFF]) :=
  ⟨rfl, rfl⟩

end Value

end BeeProtocol
