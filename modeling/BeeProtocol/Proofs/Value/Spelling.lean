import BeeProtocol.Value.Encoding
import BeeProtocol.Proofs.Bytes
import BeeProtocol.Proofs.Parser
import BeeProtocol.Proofs.Text.Utf8

/-!
# How values are spelled

Numbers of a fixed width, counted texts and tagged values each have one spelling, the one that is
written, except for false: its body may be any byte but 1. Reading a value is reading one of its
spellings.
-/

namespace BeeProtocol

/-! ### Parts of fixed and of counted width -/

/-- Bytes are split where the count says. -/
theorem Bytes.split?_eq_some_iff {count : Nat} {bytes front rest : List UInt8} :
    split? count bytes = some (front, rest) ↔ bytes = front ++ rest ∧ front.length = count := by
  unfold split?
  split
  · rename_i hcount
    have hlength := (hasAtLeast_iff count bytes).mp hcount
    rw [Option.some.injEq, Prod.mk.injEq]
    constructor
    · rintro ⟨rfl, rfl⟩
      exact ⟨(List.take_append_drop count bytes).symm, List.length_take_of_le hlength⟩
    · rintro ⟨rfl, rfl⟩
      exact ⟨List.take_left, List.drop_left⟩
  · rename_i hcount
    refine iff_of_false (by simp) ?_
    rintro ⟨rfl, rfl⟩
    exact hcount ((hasAtLeast_iff _ _).mpr (by simp))

/-- Bytes are read as they are. -/
theorem readBytes_reads (count : Nat) :
    (readBytes count).Reads fun item spelled => spelled = item ∧ item.length = count := by
  intro bytes item rest
  have hsplit : readBytes count bytes = .ok (item, rest) ↔
      Bytes.split? count bytes = some (item, rest) := by
    unfold readBytes
    cases Bytes.split? count bytes <;> simp
  rw [hsplit, Bytes.split?_eq_some_iff]
  constructor
  · rintro ⟨rfl, hlength⟩
    exact ⟨item, ⟨rfl, hlength⟩, rfl⟩
  · rintro ⟨spelled, ⟨rfl, hlength⟩, rfl⟩
    exact ⟨rfl, hlength⟩

/-- A number is spelled by the digits that it is written with. -/
theorem readNat_reads (width : Nat) :
    (readNat width).Reads fun n spelled => spelled = Bytes.ofNat width n ∧ n < 256 ^ width := by
  refine ((readBytes_reads width).map Bytes.toNat).congr fun n spelled => ?_
  constructor
  · rintro ⟨_, ⟨rfl, rfl⟩, rfl⟩
    exact ⟨(Bytes.ofNat_toNat spelled).symm, Bytes.toNat_lt spelled⟩
  · rintro ⟨rfl, hn⟩
    exact ⟨_, ⟨rfl, Bytes.length_ofNat width n⟩, (Bytes.toNat_ofNat hn).symm⟩

/-- What is read from a number is spelled by the number that it comes from. -/
theorem readNat_map_reads {α : Type} (width : Nat) (f : Nat → α) (g : α → Nat)
    (hback : ∀ n, n < 256 ^ width → g (f n) = n) (hlt : ∀ item, g item < 256 ^ width)
    (hforth : ∀ item, f (g item) = item) :
    (f <$> readNat width).Reads fun item spelled => spelled = Bytes.ofNat width (g item) := by
  refine ((readNat_reads width).map f).congr fun item spelled => ?_
  constructor
  · rintro ⟨n, ⟨rfl, hn⟩, rfl⟩
    rw [hback n hn]
  · rintro rfl
    exact ⟨g item, ⟨rfl, hlt item⟩, (hforth item).symm⟩

/-- A byte is read as it is. -/
theorem readByte_reads : readByte.Reads fun byte spelled => spelled = [byte] := by
  refine (readNat_map_reads 1 UInt8.ofNat UInt8.toNat (fun n hn => ?_) (fun byte => ?_)
    fun byte => UInt8.ofNat_toNat).congr fun byte spelled => ?_
  · exact UInt8.toNat_ofNat_of_lt' hn
  · exact byte.toNat_lt
  · simp [Bytes.ofNat]

/-- An unsigned 32 bit number is read from its four bytes. -/
theorem readUInt32_reads :
    readUInt32.Reads fun n spelled => spelled = Bytes.ofNat 4 n.toNat :=
  readNat_map_reads 4 UInt32.ofNat UInt32.toNat (fun _ hn => UInt32.toNat_ofNat_of_lt' hn)
    (fun n => n.toNat_lt) fun _ => UInt32.ofNat_toNat

/-- A signed 32 bit number is read from its four bytes. -/
theorem readInt32_reads :
    readInt32.Reads fun n spelled => spelled = Bytes.ofNat 4 n.toUInt32.toNat :=
  readNat_map_reads 4 (fun n => (UInt32.ofNat n).toInt32) (fun n => n.toUInt32.toNat)
    (fun _ hn => UInt32.toNat_ofNat_of_lt' hn) (fun n => n.toUInt32.toNat_lt)
    fun n => by simp

/-- A signed 64 bit number is read from its eight bytes. -/
theorem readInt64_reads :
    readInt64.Reads fun n spelled => spelled = Bytes.ofNat 8 n.toUInt64.toNat :=
  readNat_map_reads 8 (fun n => (UInt64.ofNat n).toInt64) (fun n => n.toUInt64.toNat)
    (fun _ hn => UInt64.toNat_ofNat_of_lt' hn) (fun n => n.toUInt64.toNat_lt)
    fun n => by simp

/-- A floating point number is read from the eight bytes of its bits. -/
theorem readBinary64_reads :
    readBinary64.Reads fun x spelled => spelled = Bytes.ofNat 8 x.bits.toNat :=
  readNat_map_reads 8 (fun n => (⟨UInt64.ofNat n⟩ : Binary64)) (fun x => x.bits.toNat)
    (fun _ hn => UInt64.toNat_ofNat_of_lt' hn) (fun x => x.bits.toNat_lt)
    fun x => by simp

/-- A tag is the tag of at most one kind. -/
theorem DataType.ofTag?_eq_some_iff (tag : UInt8) (kind : DataType) :
    ofTag? tag = some kind ↔ tag = kind.tag := by
  constructor
  · unfold ofTag?
    split <;> intro h <;> cases h <;> rfl
  · rintro rfl
    exact ofTag?_tag kind

/-- A type is read from its tag. -/
theorem readDataType_reads : readDataType.Reads fun kind spelled => spelled = [kind.tag] := by
  refine (readByte_reads.bind_check (fun tag kind => tag = kind.tag) fun tag => ?_).congr
    fun kind spelled => by simp
  cases hkind : DataType.ofTag? tag with
  | some kind =>
    refine (Parser.Reads.pure kind).congr fun found spelled => and_congr_left fun _ => ?_
    rw [← DataType.ofTag?_eq_some_iff, hkind, Option.some.injEq, eq_comm]
  | none =>
    refine (Parser.Reads.fail _).congr fun found spelled => iff_of_false id ?_
    rintro ⟨rfl, -⟩
    simp at hkind

/-- A text of a known size is spelled by its encoding. -/
theorem readText_reads (count : Nat) :
    (readText count).Reads fun text spelled =>
      spelled = Utf8.encode text ∧ spelled.length = count := by
  refine ((readBytes_reads count).bind_check (fun bytes text => bytes = Utf8.encode text)
    fun bytes => ?_).congr fun text spelled => ?_
  · cases hdecode : Utf8.decode bytes with
    | ok text =>
      obtain rfl := (Utf8.decode_eq_ok_iff bytes text).mp hdecode
      refine (Parser.Reads.pure text).congr fun found spelled => and_congr_left fun _ => ?_
      rw [← Utf8.decode_eq_ok_iff, hdecode, Except.ok.injEq, eq_comm]
    | error fault =>
      refine (Parser.Reads.fail _).congr fun found spelled => iff_of_false id ?_
      rintro ⟨hbytes, -⟩
      rw [(Utf8.decode_eq_ok_iff bytes found).mpr hbytes] at hdecode
      cases hdecode
  · constructor
    · rintro ⟨bytes, ⟨rfl, hcount⟩, htext⟩
      exact ⟨htext, hcount⟩
    · rintro ⟨htext, hcount⟩
      exact ⟨spelled, ⟨rfl, hcount⟩, htext⟩

/-- A short text is read from a length byte and the text. -/
theorem readShortText_reads :
    readShortText.Reads fun text spelled => (Utf8.encode text).length < 256 ∧
      spelled = UInt8.ofNat (Utf8.encode text).length :: Utf8.encode text := by
  refine (readByte_reads.bind _ fun count => readText_reads count.toNat).congr
    fun text spelled => ?_
  constructor
  · rintro ⟨count, front, back, rfl, ⟨rfl, hcount⟩, rfl⟩
    rw [hcount, UInt8.ofNat_toNat]
    exact ⟨count.toNat_lt, rfl⟩
  · rintro ⟨hlength, rfl⟩
    exact ⟨UInt8.ofNat (Utf8.encode text).length, _, _, rfl,
      ⟨rfl, (UInt8.toNat_ofNat_of_lt' hlength).symm⟩, rfl⟩

/-! ### Values -/

namespace Value

/-- A byte string spells a value if it is what is written for the value, or if the value is false
and a byte other than 1 stands in the place of the one that is written. -/
def Spells (value : Value) (spelled : List UInt8) : Prop :=
  value.encode = .ok spelled ∨
    value = boolean false ∧ ∃ body : UInt8, body ≠ 1 ∧ spelled = [DataType.boolean.tag, body]

/-- Bytes are counted in front if their number fits into 32 bits. -/
theorem counted_eq_ok_iff {kind : DataType} {bytes spelled : List UInt8} :
    counted kind bytes = .ok spelled ↔
      bytes.length < UInt32.size ∧ spelled = Bytes.ofNat 4 bytes.length ++ bytes := by
  unfold counted
  dsimp only
  split
  · rename_i hsize
    rw [Except.ok.injEq, eq_comm]
    exact (and_iff_right hsize).symm
  · rename_i hsize
    exact iff_of_false (by simp) fun h => hsize h.1

/-- A value is encoded as its tag and its body. -/
theorem encode_eq_ok_iff {value : Value} {spelled : List UInt8} :
    value.encode = .ok spelled ↔
      ∃ body, value.encodeBody = .ok body ∧ spelled = value.dataType.tag :: body := by
  unfold encode
  cases value.encodeBody with
  | error reason => simp [Except.map]
  | ok body => simp [Except.map, eq_comm]

/-- The body of a value as it is read. -/
def SpellsBody (value : Value) (body : List UInt8) : Prop :=
  value.encodeBody = .ok body ∨ value = boolean false ∧ ∃ byte : UInt8, byte ≠ 1 ∧ body = [byte]

/-- A value is spelled as its tag and a spelling of its body. -/
theorem spells_iff {value : Value} {spelled : List UInt8} :
    value.Spells spelled ↔
      ∃ body, value.SpellsBody body ∧ spelled = value.dataType.tag :: body := by
  unfold Spells SpellsBody
  rw [encode_eq_ok_iff]
  constructor
  · rintro (⟨body, hbody, rfl⟩ | ⟨rfl, byte, hbyte, rfl⟩)
    · exact ⟨body, .inl hbody, rfl⟩
    · exact ⟨[byte], .inr ⟨rfl, byte, hbyte, rfl⟩, rfl⟩
  · rintro ⟨body, hbody | ⟨rfl, byte, hbyte, rfl⟩, rfl⟩
    · exact .inl ⟨body, hbody, rfl⟩
    · exact .inr ⟨rfl, byte, hbyte, rfl⟩

/-- The body of a value is read from any of its spellings. -/
theorem bodyParser_reads (kind : DataType) :
    (bodyParser kind).Reads fun value body => value.dataType = kind ∧ value.SpellsBody body := by
  unfold SpellsBody
  cases kind with
  | nil =>
    refine (Parser.Reads.pure nil).congr fun value body => ?_
    cases value <;> simp [dataType, encodeBody, eq_comm]
  | string =>
    refine ((readNat_reads 4).bind _ fun count => (readText_reads count).bind_pure string).congr
      fun value body => ?_
    cases value with
    | string text =>
      simp only [dataType, encodeBody, counted_eq_ok_iff, reduceCtorEq, false_and, or_false,
        true_and]
      constructor
      · rintro ⟨count, _, _, ⟨rfl, hcount⟩, ⟨_, ⟨rfl, rfl⟩, htext⟩, rfl⟩
        obtain rfl := string.inj htext
        exact ⟨hcount, rfl⟩
      · rintro ⟨hsize, rfl⟩
        exact ⟨_, _, _, ⟨rfl, hsize⟩, ⟨text, ⟨rfl, rfl⟩, rfl⟩, rfl⟩
    | _ => simp [dataType]
  | integer =>
    refine (readInt64_reads.bind_pure integer).congr fun value body => ?_
    cases value <;> simp [dataType, encodeBody, eq_comm]
  | number =>
    refine (readBinary64_reads.bind_pure number).congr fun value body => ?_
    cases value <;> simp [dataType, encodeBody, eq_comm]
  | boolean =>
    refine (readByte_reads.bind_pure fun byte => boolean (byte == 1)).congr fun value body => ?_
    cases value with
    | boolean b =>
      constructor
      · rintro ⟨byte, rfl, hb⟩
        obtain rfl := boolean.inj hb
        refine ⟨rfl, ?_⟩
        by_cases hone : byte = 1
        · exact .inl (by rw [hone]; rfl)
        · exact .inr ⟨by simp [hone], byte, hone, rfl⟩
      · rintro ⟨-, hbody | ⟨hb, byte, hbyte, rfl⟩⟩
        · obtain rfl := Except.ok.inj hbody
          cases b with
          | false => exact ⟨0, rfl, rfl⟩
          | true => exact ⟨1, rfl, rfl⟩
        · exact ⟨byte, rfl, by rw [hb]; simp [hbyte]⟩
    | _ => simp [dataType]
  | bytes =>
    refine ((readNat_reads 4).bind _ fun count =>
      (readBytes_reads count).bind_pure fun data => bytes ⟨data⟩).congr fun value body => ?_
    cases value with
    | bytes blob =>
      simp only [dataType, encodeBody, counted_eq_ok_iff, reduceCtorEq, false_and, or_false,
        true_and]
      constructor
      · rintro ⟨count, _, _, ⟨rfl, hcount⟩, ⟨_, ⟨rfl, rfl⟩, hblob⟩, rfl⟩
        obtain rfl := bytes.inj hblob
        exact ⟨hcount, rfl⟩
      · rintro ⟨hsize, rfl⟩
        exact ⟨_, _, _, ⟨rfl, hsize⟩, ⟨blob.data, ⟨rfl, rfl⟩, rfl⟩, rfl⟩
    | _ => simp [dataType]

/-- A value is read from any of its spellings. -/
theorem parser_reads : parser.Reads Spells := by
  refine (readDataType_reads.bind _ bodyParser_reads).congr fun value spelled => ?_
  rw [spells_iff]
  constructor
  · rintro ⟨kind, front, body, rfl, ⟨rfl, hbody⟩, rfl⟩
    exact ⟨body, hbody, rfl⟩
  · rintro ⟨body, hbody, rfl⟩
    exact ⟨_, _, body, rfl, ⟨rfl, hbody⟩, rfl⟩

/-- The text or byte string of a value is shorter than 4 GiB. -/
def Fits : Value → Prop
  | string text => (Utf8.encode text).length < UInt32.size
  | bytes blob => blob.size < UInt32.size
  | _ => True

instance : (value : Value) → Decidable value.Fits
  | string text => inferInstanceAs (Decidable ((Utf8.encode text).length < UInt32.size))
  | bytes blob => inferInstanceAs (Decidable (blob.size < UInt32.size))
  | nil | integer _ | number _ | boolean _ => inferInstanceAs (Decidable True)

/-- Exactly the values that fit can be written. -/
theorem exists_encode_iff_fits (value : Value) :
    (∃ spelled, value.encode = .ok spelled) ↔ value.Fits := by
  simp only [encode_eq_ok_iff]
  cases value <;> simp [Fits, encodeBody, counted_eq_ok_iff, Blob.size]

end Value

end BeeProtocol
