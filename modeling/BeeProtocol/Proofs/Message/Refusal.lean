import BeeProtocol.Frame.Basic
import BeeProtocol.Proofs.Message.RoundTrip

/-!
# Messages that cannot be written

A message is refused for a text that does not fit its one-byte length or a list that does not fit
its one-byte count. The first such part in wire order is the reason, a count being written before
what it counts; what stands before that part has been written by then, and nothing of it or after it
is.
-/

namespace BeeProtocol

/-! ### What is too long for the wire -/

/-- The bytes of a text behind its one-byte length, for a text of at most 255 bytes. -/
def shortTextBytes (text : String) : List UInt8 :=
  UInt8.ofNat (Utf8.encode text).length :: Utf8.encode text

/-- The bytes of a column whose name has at most 255 bytes. -/
def Column.bytes (column : Column) : List UInt8 :=
  shortTextBytes column.name ++ [column.dataType.tag]

namespace Message

/-- All texts of requests and all values are below 4 GiB. -/
def IsModest : Message → Prop
  | connectRequest request =>
    (Utf8.encode request.url).length < UInt32.size ∧
      (Utf8.encode request.application).length < UInt32.size
  | statementRequest request => (Utf8.encode request.script).length < UInt32.size
  | statementResponse ⟨_, .row values⟩ => ∀ value ∈ values, value.Fits
  | _ => True

/-- A response with an error message or a column name over 255 bytes, or with more than 255 columns
or values. -/
def IsOversized : Message → Prop
  | connectResponse (.rejected reason) => 255 < (Utf8.encode reason.message).length
  | statementResponse ⟨_, .columns header⟩ =>
    255 < header.length ∨ ∃ column ∈ header, 255 < (Utf8.encode column.name).length
  | statementResponse ⟨_, .row values⟩ => 255 < values.length
  | statementResponse ⟨_, .error reason⟩ => 255 < (Utf8.encode reason.message).length
  | _ => False

/-- The first part of a message that is too long, and the bytes of all that comes before it. -/
inductive Exceeds : Message → Violation → List UInt8 → Prop
  | rejection (reason : ServerError) (hlong : 255 < (Utf8.encode reason.message).length) :
    Exceeds (.connectResponse (.rejected reason)) (.tooLong "error message")
      (1 :: Bytes.ofNat 4 reason.code.toUInt32.toNat)
  | failure (id : UInt32) (reason : ServerError)
    (hlong : 255 < (Utf8.encode reason.message).length) :
    Exceeds (.statementResponse ⟨id, .error reason⟩) (.tooLong "error message")
      (Bytes.ofNat 4 id.toNat ++ 3 :: Bytes.ofNat 4 reason.code.toUInt32.toNat)
  | columnCount (id : UInt32) (header : List Column) (hmany : 255 < header.length) :
    Exceeds (.statementResponse ⟨id, .columns header⟩) (.tooMany "columns" header.length)
      (Bytes.ofNat 4 id.toNat ++ [0])
  /-- The columns before the first one with a long name are whole. -/
  | columnName (id : UInt32) (front : List Column) (column : Column) (back : List Column)
    (hcount : (front ++ column :: back).length ≤ 255)
    (hfront : ∀ earlier ∈ front, (Utf8.encode earlier.name).length ≤ 255)
    (hlong : 255 < (Utf8.encode column.name).length) :
    Exceeds (.statementResponse ⟨id, .columns (front ++ column :: back)⟩) (.tooLong "column name")
      (Bytes.ofNat 4 id.toNat ++
        0 :: UInt8.ofNat (front ++ column :: back).length :: front.flatMap Column.bytes)
  | valueCount (id : UInt32) (values : List Value) (hmany : 255 < values.length) :
    Exceeds (.statementResponse ⟨id, .row values⟩) (.tooMany "row values" values.length)
      (Bytes.ofNat 4 id.toNat ++ [1])

/-- A modest message is too long for the wire exactly if it does not fit. -/
theorem isOversized_iff_not_fits {message : Message} (h : message.IsModest) :
    message.IsOversized ↔ ¬ message.Fits := by
  cases message with
  | connectRequest request => exact iff_of_false id (not_not_intro h)
  | connectResponse response =>
    cases response with
    | accepted => exact iff_of_false id (not_not_intro trivial)
    | rejected reason => exact Nat.not_le.symm
  | statementRequest request => exact iff_of_false id (not_not_intro h)
  | statementResponse response =>
    obtain ⟨id, event⟩ := response
    cases event with
    | columns header =>
      simp only [IsOversized, Fits, StatementEvent.Fits, not_and_or, not_forall, Nat.not_le,
        exists_prop]
    | row values =>
      have hvalues : ∀ value ∈ values, value.Fits := h
      simp only [IsOversized, Fits, StatementEvent.Fits, and_iff_left hvalues, Nat.not_le]
    | abort => exact iff_of_false (fun h => h) (not_not_intro trivial)
    | error reason => exact Nat.not_le.symm
  | ping => exact iff_of_false id (not_not_intro trivial)

/-- In a message that is too long for the wire there is a first part that is. -/
theorem IsOversized.exists_exceeds {message : Message} (h : message.IsOversized) :
    ∃ violation before, message.Exceeds violation before := by
  cases message with
  | connectResponse response =>
    cases response with
    | accepted => exact h.elim
    | rejected reason => exact ⟨_, _, .rejection reason h⟩
  | statementResponse response =>
    obtain ⟨id, event⟩ := response
    cases event with
    | columns header =>
      by_cases hmany : 255 < header.length
      · exact ⟨_, _, .columnCount id header hmany⟩
      · obtain ⟨long, hmem, hlong⟩ := h.resolve_left hmany
        let isLong (column : Column) : Bool := decide (255 < (Utf8.encode column.name).length)
        obtain ⟨column, hfind⟩ : ∃ column, header.find? isLong = some column :=
          Option.isSome_iff_exists.mp (List.find?_isSome.mpr ⟨long, hmem, decide_eq_true hlong⟩)
        obtain ⟨hfirst, front, back, rfl, hfront⟩ := List.find?_eq_some_iff_append.mp hfind
        refine ⟨_, _, .columnName id front column back (Nat.not_lt.mp hmany) ?_
          (of_decide_eq_true hfirst)⟩
        intro earlier hearlier
        simpa [isLong] using hfront earlier hearlier
    | row values => exact ⟨_, _, .valueCount id values h⟩
    | abort => exact h.elim
    | error reason => exact ⟨_, _, .failure id reason h⟩
  | connectRequest request => exact h.elim
  | statementRequest request => exact h.elim
  | ping => exact h.elim

/-- A message with a part that is too large is oversized. -/
theorem Exceeds.isOversized {message : Message} {violation : Violation} {before : List UInt8}
    (h : message.Exceeds violation before) : message.IsOversized := by
  cases h with
  | rejection reason hlong => exact hlong
  | failure id reason hlong => exact hlong
  | columnCount id header hmany => exact .inl hmany
  | columnName id front column back hcount hfront hlong => exact .inr ⟨column, by simp, hlong⟩
  | valueCount id values hmany => exact hmany

end Message

/-! ### Where the writing stops -/

namespace Layout

/-- The fields are written up to the first refused one, which is the reason. -/
structure StopsAt (layout : Layout) (reason : ProtocolError) (before : List UInt8) : Prop where
  /-- The layout is refused for this reason. -/
  refusal : layout.refusal? = some reason
  /-- This much of it was written before. -/
  written : layout.written = before

/-- A layout stops at a first field that is refused. -/
theorem stopsAt_error (reason : ProtocolError) (fields : Layout) :
    StopsAt (.error reason :: fields) reason [] := ⟨rfl, rfl⟩

/-- A layout stops where its other fields do, behind the first one. -/
theorem StopsAt.cons {layout : Layout} {reason : ProtocolError} {before : List UInt8}
    (h : layout.StopsAt reason before) (bytes : List UInt8) :
    StopsAt (.ok bytes :: layout) reason (bytes ++ before) :=
  ⟨h.refusal, congrArg (bytes ++ ·) h.written⟩

/-- A layout stops where its second part does, behind the first one. -/
theorem StopsAt.behind {layout : Layout} {reason : ProtocolError} {before : List UInt8}
    (h : layout.StopsAt reason before) {fields : Layout} {front : List UInt8}
    (hfields : fields.Writes front) : StopsAt (fields ++ layout) reason (front ++ before) := by
  induction fields generalizing front with
  | nil =>
    obtain rfl := (writes_nil_iff front).mp hfields
    exact h
  | cons field fields ih =>
    obtain ⟨first, rest, rfl, hrest, rfl⟩ := writes_cons_iff.mp hfields
    rw [List.append_assoc]
    exact (ih hrest).cons first

/-- Whole items are written one behind the other up to what is refused. -/
theorem StopsAt.behind_items {α : Type} {layout : Layout} {reason : ProtocolError}
    {before : List UInt8} (h : layout.StopsAt reason before) (f : α → Layout)
    (bytes : α → List UInt8) (items : List α)
    (hitems : ∀ item ∈ items, (f item).Writes (bytes item)) :
    StopsAt (items.flatMap f ++ layout) reason (items.flatMap bytes ++ before) := by
  induction items with
  | nil => exact h
  | cons item items ih =>
    rw [List.flatMap_cons, List.flatMap_cons, List.append_assoc, List.append_assoc]
    refine (ih fun other hother => ?_).behind (hitems item List.mem_cons_self)
    exact hitems other (List.mem_cons_of_mem item hother)

end Layout

/-- A layout stops at a count that does not fit into a byte. -/
theorem stopsAt_countField {items : String} {count : Nat} (h : 255 < count) (fields : Layout) :
    Layout.StopsAt (countField items count :: fields) (.violation (.tooMany items count)) [] := by
  rw [countField, if_neg (by omega)]
  exact Layout.stopsAt_error _ fields

/-- A layout stops at a text whose length does not fit into a byte. -/
theorem stopsAt_shortTextField (field : String) {text : String}
    (h : 255 < (Utf8.encode text).length) (fields : Layout) :
    Layout.StopsAt (shortTextField field text :: fields) (.violation (.tooLong field)) [] := by
  have hrefused : shortTextField field text = .error (.violation (.tooLong field)) :=
    if_neg (by omega)
  rw [hrefused]
  exact Layout.stopsAt_error _ fields

/-- An error with a message that is too long stops behind its code. -/
theorem ServerError.stopsAt {reason : ServerError}
    (h : 255 < (Utf8.encode reason.message).length) :
    reason.layout.StopsAt (.violation (.tooLong "error message"))
      (Bytes.ofNat 4 reason.code.toUInt32.toNat) := by
  have hcode := (stopsAt_shortTextField "error message" h []).cons
    (Bytes.ofNat 4 reason.code.toUInt32.toNat)
  rwa [List.append_nil] at hcode

/-- A column whose name fits is written as its bytes. -/
theorem Column.writes_bytes {column : Column} (h : (Utf8.encode column.name).length ≤ 255) :
    column.layout.Writes column.bytes :=
  Layout.writes_pair_iff.mpr
    ⟨_, _, shortTextField_eq_ok_iff.mpr ⟨by omega, rfl⟩, rfl, rfl⟩

namespace Message

/-- The writing of a message stops at its first part that is too long. -/
theorem Exceeds.stopsAt {message : Message} {violation : Violation} {before : List UInt8}
    (h : message.Exceeds violation before) :
    message.layout.StopsAt (.violation violation) before := by
  cases h with
  | rejection reason hlong => exact (ServerError.stopsAt hlong).cons [1]
  | failure id reason hlong =>
    exact ((ServerError.stopsAt hlong).cons [3]).cons (Bytes.ofNat 4 id.toNat)
  | columnCount id header hmany =>
    exact ((stopsAt_countField hmany _).cons [0]).cons (Bytes.ofNat 4 id.toNat)
  | columnName id front column back hcount hfront hlong =>
    have hname := stopsAt_shortTextField "column name" hlong
      (.ok [column.dataType.tag] :: back.flatMap Column.layout)
    have hnames := hname.behind_items Column.layout Column.bytes front fun earlier hearlier =>
      Column.writes_bytes (hfront earlier hearlier)
    rw [List.append_nil] at hnames
    have hcounted := hnames.cons [UInt8.ofNat (front ++ column :: back).length]
    have hfield : countField "columns" (front ++ column :: back).length =
        .ok [UInt8.ofNat (front ++ column :: back).length] :=
      countField_eq_ok_iff.mpr ⟨by omega, rfl⟩
    rw [← hfield] at hcounted
    have hlayout : (front ++ column :: back).flatMap Column.layout =
        front.flatMap Column.layout ++ shortTextField "column name" column.name ::
          .ok [column.dataType.tag] :: back.flatMap Column.layout := by
      rw [List.flatMap_append, List.flatMap_cons]
      rfl
    rw [layout, StatementEvent.layout, hlayout]
    exact (hcounted.cons [0]).cons (Bytes.ofNat 4 id.toNat)
  | valueCount id values hmany =>
    exact ((stopsAt_countField hmany _).cons [1]).cons (Bytes.ofNat 4 id.toNat)

/-! ### What a refusal leaves -/

/-- What comes of a message with a first part that is too long. -/
theorem Exceeds.refused {message : Message} {violation : Violation} {before : List UInt8}
    (h : message.Exceeds violation before) (buffer : List UInt8) :
    message.appendTo buffer = (.error (.violation violation), buffer ++ before) ∧
      message.toFrame = .error (.violation violation) := by
  obtain ⟨hrefusal, hwritten⟩ := h.stopsAt
  refine ⟨?_, ?_⟩
  · rw [appendTo, hrefusal, hwritten]
  · rw [toFrame, encode, hrefusal]
    rfl

/-- A message that fits is appended as a whole, and its frame carries the same bytes. -/
theorem appends_of_fits {message : Message} (h : message.Fits) (buffer : List UInt8) :
    ∃ bytes, message.appendTo buffer = (.ok (), buffer ++ bytes) ∧
      message.toFrame = .ok ⟨message.kind.frameType, bytes⟩ := by
  obtain ⟨bytes, hencode⟩ := exists_encode_of_fits h
  exact ⟨bytes, appendTo_of_encode hencode buffer, by rw [toFrame, hencode]; rfl⟩

/-- A message is refused exactly if it is a response with a text over 255 bytes or a list of more
than 255 items. The first such part is the reason, the buffer has all that comes before it behind
what was there, and there is no frame. All other messages are appended as a whole, and they have a
frame with the same bytes. -/
theorem refusesCleanly (message : Message) (hmodest : message.IsModest) (buffer : List UInt8) :
    ((∃ reason, (message.appendTo buffer).1 = .error reason) ↔ message.IsOversized) ∧
      ((∃ reason, message.toFrame = .error reason) ↔ message.IsOversized) ∧
      (message.IsOversized → ∃ violation before, message.Exceeds violation before) ∧
      (∀ violation before, message.Exceeds violation before →
        message.appendTo buffer = (.error (.violation violation), buffer ++ before) ∧
          message.toFrame = .error (.violation violation)) ∧
      (¬ message.IsOversized → ∃ bytes,
        message.appendTo buffer = (.ok (), buffer ++ bytes) ∧
          message.toFrame = .ok ⟨message.kind.frameType, bytes⟩) := by
  have hwhole (hsize : ¬ message.IsOversized) : ∃ bytes,
      message.appendTo buffer = (.ok (), buffer ++ bytes) ∧
        message.toFrame = .ok ⟨message.kind.frameType, bytes⟩ :=
    appends_of_fits (not_not.mp ((isOversized_iff_not_fits hmodest).not.mp hsize)) buffer
  have hrefused (hsize : message.IsOversized) : ∃ reason,
      (message.appendTo buffer).1 = .error reason ∧ message.toFrame = .error reason := by
    obtain ⟨violation, before, hexceeds⟩ := hsize.exists_exceeds
    obtain ⟨happend, hframe⟩ := hexceeds.refused buffer
    exact ⟨_, congrArg Prod.fst happend, hframe⟩
  refine ⟨⟨?_, ?_⟩, ⟨?_, ?_⟩, IsOversized.exists_exceeds, fun _ _ h => h.refused buffer, hwhole⟩
  · rintro ⟨reason, hreason⟩
    by_contra hsize
    obtain ⟨bytes, happend, -⟩ := hwhole hsize
    rw [happend] at hreason
    cases hreason
  · exact fun hsize => (hrefused hsize).imp fun _ => And.left
  · rintro ⟨reason, hreason⟩
    by_contra hsize
    obtain ⟨bytes, -, hframe⟩ := hwhole hsize
    rw [hframe] at hreason
    cases hreason
  · exact fun hsize => (hrefused hsize).imp fun _ => And.right

/-- Two columns of which the second one has a name of 256 bytes, behind a byte of something else. -/
theorem refusesCleanly_secondName :
    let long : Column := ⟨String.ofList (List.replicate 256 'x'), .string⟩
    let message : Message := .statementResponse ⟨7, .columns [⟨"a", .integer⟩, long, long]⟩
    message.IsModest ∧ message.IsOversized ∧
      message.appendTo [9] = (.error (.violation (.tooLong "column name")),
        [9, 0, 0, 0, 7, 0, 3, 1, 97, 2]) ∧
      message.toFrame = .error (.violation (.tooLong "column name")) := by
  intro long message
  have hlong : 255 < (Utf8.encode long.name).length := by
    rw [Utf8.encode, String.toList_ofList, List.length_flatMap, List.map_replicate,
      List.sum_replicate_nat]
    decide
  have hexceeds : message.Exceeds (.tooLong "column name") [0, 0, 0, 7, 0, 3, 1, 97, 2] :=
    .columnName 7 [⟨"a", .integer⟩] long [long] (by decide) (by decide) hlong
  obtain ⟨-, -, -, hrefused, -⟩ := refusesCleanly message trivial [9]
  obtain ⟨happend, hframe⟩ := hrefused _ _ hexceeds
  exact ⟨trivial, hexceeds.isOversized, happend, hframe⟩

end Message

end BeeProtocol
