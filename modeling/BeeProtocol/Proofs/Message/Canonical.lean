import BeeProtocol.Proofs.Message.RoundTrip

/-!
# Messages that are read are written back

What is decoded from a payload can be encoded again, and gives the bytes that were read. The only
bytes that may change are the bodies of false booleans in a row: any byte but 1 is read as false,
and 0 is written. So two payloads of the same message differ at most in such bytes and in what was
not read.
-/

namespace BeeProtocol

/-! ### Byte strings that agree outside some positions -/

namespace Bytes

/-- Byte strings of the same length that agree at every position but the loose ones. -/
def AgreeOutside (loose : List Nat) (first second : List UInt8) : Prop :=
  first.length = second.length ∧ ∀ i, i ∉ loose → first[i]? = second[i]?

/-- The bytes as they are written back: a byte at a loose position is not 1 and becomes 0. -/
def WrittenBack (loose : List Nat) (read written : List UInt8) : Prop :=
  AgreeOutside loose read written ∧
    ∀ i, i ∈ loose → written[i]? = some 0 ∧ ∃ byte, read[i]? = some byte ∧ byte ≠ 1

/-- What is written back as it is differs nowhere. -/
theorem WrittenBack.refl (bytes : List UInt8) : WrittenBack [] bytes bytes :=
  ⟨⟨rfl, fun _ _ => rfl⟩, fun _ hi => absurd hi List.not_mem_nil⟩

/-- A loose position is inside the byte string. -/
theorem WrittenBack.lt_length {loose : List Nat} {read written : List UInt8}
    (h : WrittenBack loose read written) {i : Nat} (hi : i ∈ loose) : i < written.length :=
  (List.getElem?_eq_some_iff.mp (h.2 i hi).1).1

/-- What is written back in two parts differs where the parts do. -/
theorem WrittenBack.append {loose loose' : List Nat} {read written read' written' : List UInt8}
    (h : WrittenBack loose read written) (h' : WrittenBack loose' read' written') :
    WrittenBack (loose ++ loose'.map (written.length + ·)) (read ++ read')
      (written ++ written') := by
  have hlength := h.1.1
  refine ⟨⟨by simp [hlength, h'.1.1], fun i hi => ?_⟩, fun i hi => ?_⟩
  · rw [List.mem_append, List.mem_map, not_or] at hi
    rw [List.getElem?_append, List.getElem?_append, hlength]
    split
    · exact h.1.2 i hi.1
    · refine h'.1.2 _ fun hmem => hi.2 ⟨_, hmem, ?_⟩
      omega
  · rcases List.mem_append.mp hi with hi | hi
    · have hlt := h.lt_length hi
      rw [List.getElem?_append_left hlt, List.getElem?_append_left (by omega)]
      exact h.2 i hi
    · obtain ⟨j, hj, rfl⟩ := List.mem_map.mp hi
      rw [List.getElem?_append_right (by omega), List.getElem?_append_right (by omega), hlength,
        Nat.add_sub_cancel_left]
      exact h'.2 j hj

/-- Two byte strings that are written back alike agree with each other. -/
theorem WrittenBack.agree {loose : List Nat} {first second written : List UInt8}
    (hfirst : WrittenBack loose first written) (hsecond : WrittenBack loose second written) :
    AgreeOutside loose first second :=
  ⟨hfirst.1.1.trans hsecond.1.1.symm,
    fun i hi => (hfirst.1.2 i hi).trans (hsecond.1.2 i hi).symm⟩

end Bytes

/-! ### The bodies of false booleans -/

namespace Value

/-- The number of bytes of a value with its tag. -/
def width : Value → Nat
  | nil => 1
  | string text => 5 + (Utf8.encode text).length
  | integer _ => 9
  | number _ => 9
  | boolean _ => 2
  | bytes blob => 5 + blob.size

/-- Where the bodies of the false booleans stand in values one behind the other. -/
def falseBodies : List Value → List Nat
  | [] => []
  | value :: values =>
    (if value = boolean false then [1] else []) ++ (falseBodies values).map (value.width + ·)

/-- A value is encoded in as many bytes as it is wide. -/
theorem length_of_encode {value : Value} {bytes : List UInt8} (h : value.encode = .ok bytes) :
    bytes.length = value.width := by
  obtain ⟨body, hbody, rfl⟩ := encode_eq_ok_iff.mp h
  rw [List.length_cons]
  cases value with
  | string text =>
    obtain ⟨-, rfl⟩ := counted_eq_ok_iff.mp hbody
    rw [List.length_append, Bytes.length_ofNat, width]
    omega
  | bytes blob =>
    obtain ⟨-, rfl⟩ := counted_eq_ok_iff.mp hbody
    rw [List.length_append, Bytes.length_ofNat, width, Blob.size]
    omega
  | _ =>
    obtain rfl := Except.ok.inj hbody
    simp [width]

/-- A spelling of a value is written back with 0 as the body of a false boolean. -/
theorem writtenBack_of_spells {value : Value} {spelled : List UInt8} (h : value.Spells spelled) :
    ∃ written, value.encode = .ok written ∧
      Bytes.WrittenBack (if value = boolean false then [1] else []) spelled written := by
  by_cases hfalse : value = boolean false
  · rw [if_pos hfalse]
    have hspelled : ∃ body : UInt8, body ≠ 1 ∧ spelled = [DataType.boolean.tag, body] := by
      rcases h with hencode | ⟨-, hbody⟩
      · rw [hfalse] at hencode
        obtain rfl := Except.ok.inj hencode
        exact ⟨0, by decide, rfl⟩
      · exact hbody
    obtain ⟨body, hbody, rfl⟩ := hspelled
    refine ⟨[DataType.boolean.tag, 0], by rw [hfalse]; rfl, ⟨rfl, fun i hi => ?_⟩, fun i hi => ?_⟩
    · rcases i with _ | _ | i
      · rfl
      · exact absurd (List.mem_singleton.mpr rfl) hi
      · rfl
    · obtain rfl := List.mem_singleton.mp hi
      exact ⟨rfl, body, rfl, hbody⟩
  · rw [if_neg hfalse]
    rcases h with hencode | ⟨hvalue, -⟩
    · exact ⟨spelled, hencode, .refl spelled⟩
    · exact absurd hvalue hfalse

/-- Spellings of values one behind the other are written back one by one. -/
theorem writtenBack_of_spells_all {values : List Value} {parts : List (List UInt8)}
    (h : List.Forall₂ Spells values parts) :
    ∃ written : List (List UInt8),
      List.Forall₂ (fun value part => value.encode = .ok part) values written ∧
        Bytes.WrittenBack (falseBodies values) parts.flatten written.flatten := by
  induction h with
  | nil => exact ⟨[], .nil, .refl []⟩
  | cons hvalue hvalues ih =>
    obtain ⟨front, hencode, hfront⟩ := writtenBack_of_spells hvalue
    obtain ⟨written, hwritten, hback⟩ := ih
    refine ⟨front :: written, .cons hencode hwritten, ?_⟩
    rw [falseBodies, List.flatten_cons, List.flatten_cons, ← length_of_encode hencode]
    exact hfront.append hback

end Value

/-! ### Whole messages -/

namespace Message

/-- Where the bodies of the false booleans of a row stand in its payload, behind the id, the state
and the count. Other messages have none. -/
def falseBodies : Message → List Nat
  | statementResponse ⟨_, .row values⟩ => (Value.falseBodies values).map (6 + ·)
  | _ => []

/-- A spelling of a message is written back with 0 as the body of a false boolean. -/
theorem writtenBack_of_spells {message : Message} {spelled : List UInt8}
    (h : message.Spells spelled) :
    ∃ written, message.encode = .ok written ∧
      Bytes.WrittenBack message.falseBodies spelled written := by
  cases message with
  | statementResponse response =>
    obtain ⟨id, event⟩ := response
    obtain ⟨body, hbody, rfl⟩ := h
    have hencode {body : List UInt8} (hwrites : event.layout.Writes body) :
        (statementResponse ⟨id, event⟩).encode =
          .ok (Bytes.ofNat 4 id.toNat ++ event.state :: body) := by
      rw [encode_eq_ok_iff, layout, Layout.writes_ok_cons_iff]
      exact ⟨_, Layout.writes_ok_cons_iff.mpr ⟨body, hwrites, rfl⟩, rfl⟩
    cases event with
    | row values =>
      obtain ⟨hcount, parts, hparts, rfl⟩ := hbody
      obtain ⟨written, hwritten, hback⟩ := Value.writtenBack_of_spells_all hparts
      refine ⟨_, hencode (StatementEvent.writes_row_iff.mpr ⟨hcount, written, hwritten, rfl⟩), ?_⟩
      let front : List UInt8 :=
        Bytes.ofNat 4 id.toNat ++ [1, UInt8.ofNat values.length]
      have hfront : front.length = 6 := by simp [front]
      have happend := (Bytes.WrittenBack.refl front).append hback
      rw [hfront] at happend
      simpa [front, falseBodies, StatementEvent.state] using happend
    | _ => exact ⟨_, hencode hbody, .refl _⟩
  | _ => exact ⟨spelled, h, .refl spelled⟩

/-- What is written for a message against the payload that the message was read from. -/
structure Rewrites (message : Message) (payload bytes : List UInt8) : Prop where
  /-- The message is accepted for writing and these are its bytes. -/
  encoded : message.encode = .ok bytes
  /-- Reading took as many bytes of the payload as are written, and left what follows them. -/
  consumed : parser message.kind payload = .ok (message, payload.drop bytes.length)
  /-- The bytes that were read are written back, but each false boolean with the body 0. -/
  writtenBack : Bytes.WrittenBack message.falseBodies (payload.take bytes.length) bytes
  /-- What is written decodes to the message again. -/
  decoded : decode message.kind bytes = .ok message

/-- A message that was read is written back but for its boolean bytes. -/
theorem rewrites_of_read {message : Message} {payload rest : List UInt8}
    (hkind : message.kind ≠ .ping) (h : parser message.kind payload = .ok (message, rest)) :
    ∃ bytes, message.Rewrites payload bytes := by
  obtain ⟨spelled, ⟨-, hspells⟩, rfl⟩ := (parser_reads hkind _ _ _).mp h
  obtain ⟨bytes, hencode, hback⟩ := writtenBack_of_spells hspells
  have hlength : spelled.length = bytes.length := hback.1.1
  refine ⟨bytes, hencode, ?_, ?_, ?_⟩
  · rw [← hlength, List.drop_left, h]
  · rwa [← hlength, List.take_left]
  · simpa using decode_of_spells (spells_of_encode hencode) []

/-- A message that was decoded is of its kind and is written back. -/
theorem exists_rewrites_of_decode {kind : MessageKind} (hkind : kind ≠ .ping)
    {payload : List UInt8} {message : Message} (h : decode kind payload = .ok message) :
    message.kind = kind ∧ ∃ bytes, message.Rewrites payload bytes := by
  obtain ⟨rest, hread⟩ := Parser.parse_eq_ok_iff.mp h
  obtain ⟨-, ⟨rfl, -⟩, -⟩ := (parser_reads hkind _ _ _).mp hread
  exact ⟨rfl, rewrites_of_read hkind hread⟩

/-- A message that was decoded from a payload is written as the bytes that were read, except that
the body of a false boolean becomes 0. The same bytes are written for any other payload that decodes
to the message, so what is read from one differs from what is read from the other at most in the
bodies of false booleans, where neither has a 1. -/
theorem rewrites_of_decode {kind : MessageKind} (hkind : kind ≠ .ping) {payload : List UInt8}
    {message : Message} (h : decode kind payload = .ok message) :
    message.kind = kind ∧ ∃ bytes, message.Rewrites payload bytes ∧
      ∀ other, decode kind other = .ok message → message.Rewrites other bytes ∧
        Bytes.AgreeOutside message.falseBodies (payload.take bytes.length)
          (other.take bytes.length) := by
  obtain ⟨hsame, bytes, hbytes⟩ := exists_rewrites_of_decode hkind h
  refine ⟨hsame, bytes, hbytes, fun other hother => ?_⟩
  obtain ⟨-, bytes', hbytes'⟩ := exists_rewrites_of_decode hkind hother
  obtain rfl : bytes = bytes' := Except.ok.inj (hbytes.encoded.symm.trans hbytes'.encoded)
  exact ⟨hbytes', hbytes.writtenBack.agree hbytes'.writtenBack⟩

/-- A row of a true and a false boolean whose body is 7, with one byte behind it. -/
theorem rewrites_falseAsSeven :
    let payload : List UInt8 := [0, 0, 0, 5, 1, 2, 4, 1, 4, 7, 9]
    let message : Message := .statementResponse ⟨5, .row [.boolean true, .boolean false]⟩
    decode .statementResponse payload = .ok message ∧ message.falseBodies = [9] ∧
      message.encode = .ok [0, 0, 0, 5, 1, 2, 4, 1, 4, 0] ∧
      message.kind = .statementResponse ∧ ∃ bytes, message.Rewrites payload bytes ∧
        ∀ other, decode .statementResponse other = .ok message → message.Rewrites other bytes ∧
          Bytes.AgreeOutside message.falseBodies (payload.take bytes.length)
            (other.take bytes.length) :=
  ⟨rfl, rfl, rfl, rewrites_of_decode (by decide) rfl⟩

end Message

end BeeProtocol
