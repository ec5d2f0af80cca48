import BeeProtocol.Value.Cursor
import BeeProtocol.Proofs.Value.Spelling

/-!
# Values one after another

A cursor that reads an item moves past the item's spelling, and one that cannot read stays. As a
value is spelled without regard to what follows it, values that were appended one after another are
read back one after another, and no value's bytes go on to be another value's.
-/

namespace BeeProtocol

/-! ### One read -/

namespace Cursor

variable {ε α : Type}

/-- A cursor stands `count` bytes further in the same payload. -/
structure Advances (cursor : Cursor) (count : Nat) (next : Cursor) : Prop where
  /-- The payload is the same. -/
  payload : next.payload = cursor.payload
  /-- The position is so much further. -/
  position : next.position = cursor.position + count

/-- Where a cursor gets to is determined by how far it moves. -/
theorem Advances.unique {cursor next next' : Cursor} {count : Nat}
    (h : cursor.Advances count next) (h' : cursor.Advances count next') : next = next' := by
  obtain ⟨payload, position, _⟩ := next
  obtain ⟨payload', position', _⟩ := next'
  obtain rfl : payload = payload' := h.payload.trans h'.payload.symm
  obtain rfl : position = position' := h.position.trans h'.position.symm
  rfl

/-- How far a cursor moves is determined by where it gets to. -/
theorem Advances.count_eq {cursor next : Cursor} {count count' : Nat}
    (h : cursor.Advances count next) (h' : cursor.Advances count' next) : count = count' :=
  Nat.add_left_cancel (h.position.symm.trans h'.position)

/-- Moves add up. -/
theorem Advances.trans {cursor next last : Cursor} {count more : Nat}
    (h : cursor.Advances count next) (h' : next.Advances more last) :
    cursor.Advances (count + more) last where
  payload := h'.payload.trans h.payload
  position := by rw [h'.position, h.position, Nat.add_assoc]

/-- What is left is what was left, without the bytes that were passed. -/
theorem Advances.rest {cursor next : Cursor} {count : Nat} (h : cursor.Advances count next) :
    next.rest = cursor.rest.drop count := by
  rw [Cursor.rest, Cursor.rest, h.payload, h.position, List.drop_drop]

/-- What was read and what is left is the payload. -/
theorem length_rest (cursor : Cursor) :
    cursor.position + cursor.rest.length = cursor.payload.length := by
  have hwithin := cursor.position_le
  rw [rest, List.length_drop]
  omega

/-- A cursor can move past bytes that are in front of it. -/
theorem exists_advances (cursor : Cursor) {spelled rest : List UInt8}
    (hrest : cursor.rest = spelled ++ rest) : ∃ next, cursor.Advances spelled.length next := by
  have hlength := cursor.length_rest
  rw [hrest, List.length_append] at hlength
  exact ⟨⟨cursor.payload, cursor.position + spelled.length, by omega⟩, rfl, rfl⟩

/-- A cursor reads the item that is spelled in front of it and moves past the spelling. -/
theorem read_eq_ok_iff {parser : Parser ValueError α} {Spells : α → List UInt8 → Prop}
    (h : parser.Reads Spells) {cursor next : Cursor} {item : α} :
    cursor.read parser = (.ok item, next) ↔
      ∃ spelled rest, Spells item spelled ∧ cursor.rest = spelled ++ rest ∧
        cursor.Advances spelled.length next := by
  -- Where the cursor is put is counted from the end of the payload.
  have hmoved {spelled rest : List UInt8} (hrest : cursor.rest = spelled ++ rest) :
      cursor.Advances spelled.length
        ⟨cursor.payload, cursor.payload.length - rest.length, Nat.sub_le _ _⟩ := by
    have hlength := cursor.length_rest
    rw [hrest, List.length_append] at hlength
    refine ⟨rfl, ?_⟩
    dsimp only
    omega
  unfold read
  cases hparse : parser cursor.rest with
  | error reason =>
    refine iff_of_false (by simp) ?_
    rintro ⟨spelled, rest, hspelled, hrest, -⟩
    rw [(h _ item rest).mpr ⟨spelled, hspelled, hrest⟩] at hparse
    cases hparse
  | ok result =>
    obtain ⟨found, rest⟩ := result
    obtain ⟨spelled, hspelled, hrest⟩ := (h _ found rest).mp hparse
    rw [Prod.mk.injEq, Except.ok.injEq]
    constructor
    · rintro ⟨rfl, rfl⟩
      exact ⟨spelled, rest, hspelled, hrest, hmoved hrest⟩
    · rintro ⟨spelled', rest', hspelled', hrest', hnext⟩
      rw [(h _ item rest').mpr ⟨spelled', hspelled', hrest'⟩] at hparse
      obtain ⟨rfl, rfl⟩ := Prod.mk.inj (Except.ok.inj hparse)
      exact ⟨rfl, (hmoved hrest').unique hnext⟩

/-- A cursor that cannot read stays where it is. -/
theorem read_eq_error_iff {parser : Parser ValueError α} {cursor next : Cursor}
    {reason : ValueError} :
    cursor.read parser = (.error reason, next) ↔
      parser cursor.rest = .error reason ∧ next = cursor := by
  unfold read
  cases parser cursor.rest <;> simp [eq_comm]

/-- Reads values one after another, as long as they can be read. -/
def readValues (cursor : Cursor) : Nat → Except ValueError (List Value) × Cursor
  | 0 => (.ok [], cursor)
  | count + 1 =>
    match cursor.read Value.parser with
    | (.ok value, next) =>
      let (values, last) := next.readValues count
      (values.map (value :: ·), last)
    | (.error reason, cursor) => (.error reason, cursor)

/-- Values that are spelled one behind another in front of a cursor are read one after another. -/
theorem readValues_of_spells {values : List Value} {parts : List (List UInt8)}
    (h : List.Forall₂ Value.Spells values parts) {cursor : Cursor} {rest : List UInt8}
    (hrest : cursor.rest = parts.flatten ++ rest) :
    ∃ last, cursor.readValues values.length = (.ok values, last) ∧
      cursor.Advances parts.flatten.length last := by
  induction h generalizing cursor with
  | nil => exact ⟨cursor, rfl, rfl, rfl⟩
  | @cons value part values parts hvalue hmore ih =>
    rw [List.flatten_cons, List.append_assoc] at hrest
    obtain ⟨next, hnext⟩ := cursor.exists_advances hrest
    have hread := (read_eq_ok_iff Value.parser_reads).mpr ⟨part, _, hvalue, hrest, hnext⟩
    obtain ⟨last, hvalues, hlast⟩ := ih (by rw [hnext.rest, hrest, List.drop_left])
    refine ⟨last, ?_, ?_⟩
    · rw [List.length_cons, readValues, hread]
      dsimp only
      rw [hvalues]
      rfl
    · rw [List.flatten_cons, List.length_append]
      exact hnext.trans hlast

end Cursor

/-! ### Appending values -/

namespace Encoder

/-- Appends values one after another, as long as they can be written. -/
def pushAll (encoder : Encoder) : List Value → Except ValueError Unit × Encoder
  | [] => (.ok (), encoder)
  | value :: values =>
    match encoder.push value with
    | (.ok (), written) => written.pushAll values
    | refused => refused

/-- Values that can be written are appended one behind another. -/
theorem pushAll_of_encoded {values : List Value} {parts : List (List UInt8)}
    (h : List.Forall₂ (fun value part => value.encode = .ok part) values parts)
    (encoder : Encoder) :
    encoder.pushAll values = (.ok (), ⟨encoder.buffer ++ parts.flatten⟩) := by
  induction h generalizing encoder with
  | nil => rw [pushAll, List.flatten_nil, List.append_nil]
  | @cons value part values parts hvalue _ ih =>
    have hpush : encoder.push value = (.ok (), ⟨encoder.buffer ++ part⟩) := by rw [push, hvalue]
    rw [pushAll, hpush]
    dsimp only
    rw [ih, List.flatten_cons, List.append_assoc]

end Encoder

namespace Value

/-- Values that fit have bytes. -/
theorem exists_parts {values : List Value} (hfits : ∀ value ∈ values, value.Fits) :
    ∃ parts, List.Forall₂ (fun value part => value.encode = .ok part) values parts := by
  induction values with
  | nil => exact ⟨[], .nil⟩
  | cons value values ih =>
    rw [List.forall_mem_cons] at hfits
    obtain ⟨part, hpart⟩ := value.exists_encode_iff_fits.mpr hfits.1
    obtain ⟨parts, hparts⟩ := ih hfits.2
    exact ⟨part :: parts, .cons hpart hparts⟩

/-- If a value's bytes begin another value's, the values are the same. -/
theorem eq_of_beginning {value other : Value} {spelled spelled' : List UInt8}
    (hvalue : value.encode = .ok spelled) (hother : other.encode = .ok spelled')
    (hbegins : spelled <+: spelled') : value = other ∧ spelled = spelled' := by
  obtain ⟨more, rfl⟩ := hbegins
  have hread := (parser_reads _ value more).mpr ⟨spelled, .inl hvalue, rfl⟩
  have hwhole := (parser_reads _ other []).mpr ⟨_, .inl hother, (List.append_nil _).symm⟩
  rw [hread] at hwhole
  obtain ⟨rfl, rfl⟩ := Prod.mk.inj (Except.ok.inj hwhole)
  exact ⟨rfl, (List.append_nil _).symm⟩

/-- Values that fit are appended to any buffer as the same bytes, behind what was there. Whatever
follows these bytes, the same values are read from them one after another, and the cursor then
stands behind the last one. No value's bytes begin those of another value. -/
theorem roundTrips_sequence :
    (∀ values : List Value, (∀ value ∈ values, value.Fits) →
      ∃ bytes : List UInt8,
        (∀ encoder : Encoder,
          encoder.pushAll values = (.ok (), ⟨encoder.buffer ++ bytes⟩)) ∧
        ∀ trailing : List UInt8, ∃ last : Cursor,
          (Cursor.ofList (bytes ++ trailing)).readValues values.length = (.ok values, last) ∧
            last.payload = bytes ++ trailing ∧ last.position = bytes.length ∧
            last.remaining = trailing.length) ∧
    ∀ (value other : Value) (spelled spelled' : List UInt8), value.encode = .ok spelled →
      other.encode = .ok spelled' → spelled <+: spelled' → value = other ∧ spelled = spelled' := by
  refine ⟨?_, fun _ _ _ _ => eq_of_beginning⟩
  intro values hfits
  obtain ⟨parts, hparts⟩ := exists_parts hfits
  refine ⟨parts.flatten, Encoder.pushAll_of_encoded hparts, ?_⟩
  intro trailing
  have hspells : List.Forall₂ Spells values parts := hparts.imp fun _ _ => .inl
  obtain ⟨last, hread, hlast⟩ := Cursor.readValues_of_spells hspells
    (show (Cursor.ofList (parts.flatten ++ trailing)).rest = parts.flatten ++ trailing from rfl)
  have hposition : last.position = parts.flatten.length := by
    rw [hlast.position]
    exact Nat.zero_add _
  refine ⟨last, hread, hlast.payload, hposition, ?_⟩
  rw [Cursor.remaining, hlast.payload, hposition]
  simp [Cursor.ofList]

/-- A negative zero, a NaN with a payload, a text whose bytes look like a tag, and an empty byte
string, in front of bytes that look like one more value. -/
theorem roundTrips_mixed :
    let values : List Value := [.number ⟨0x8000000000000000⟩, .number ⟨0x7FF8000000000001⟩,
      .string "\x04\x01", .bytes ⟨[]⟩]
    ∃ bytes last, (Encoder.mk [9]).pushAll values = (.ok (), ⟨[9] ++ bytes⟩) ∧
      (Cursor.ofList (bytes ++ [4, 1])).readValues 4 = (.ok values, last) ∧
      last.position = bytes.length ∧ last.remaining = 2 := by
  intro values
  obtain ⟨bytes, hpush, hread⟩ := roundTrips_sequence.1 values (by decide)
  obtain ⟨last, hvalues, -, hposition, hremaining⟩ := hread [4, 1]
  exact ⟨bytes, last, hpush ⟨[9]⟩, hvalues, hposition, hremaining⟩

end Value

end BeeProtocol
