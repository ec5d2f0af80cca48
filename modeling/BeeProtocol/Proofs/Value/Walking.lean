import BeeProtocol.Proofs.Value.Failures

/-!
# Reading by positions

An item is read part by part, and each part moves the position in the payload before it is known
whether the next one can be read. A walk keeps that position: where a part is missing or ill-formed
it stands behind the parts before, unless the whole read goes back to where it began. With the ways
back that are taken here, walks leave the same results and positions as cursors.
-/

namespace BeeProtocol

/-- Reads from a position in a payload and says how far it got, also where it failed. -/
abbrev Walk (α : Type) := ReaderT (List UInt8) (ExceptT ValueError (StateM Nat)) α

namespace Walk

variable {α β : Type}

/-- Takes the next `count` bytes if they are all there. -/
def take (count : Nat) : Walk (List UInt8) := fun payload position =>
  if payload.length - position < count then (.error .unexpectedEnd, position)
  else (.ok ((payload.drop position).take count), position + count)

/-- Fails with a reason where it stands. -/
def fail (reason : ValueError) : Walk α := fun _ position => (.error reason, position)

/-- Goes back to where it began if it fails. -/
def orReturn (walk : Walk α) : Walk α := fun payload position =>
  match walk payload position with
  | (.ok item, reached) => (.ok item, reached)
  | (.error reason, _) => (.error reason, position)

/-- Walks over a number of `width` bytes. -/
def nat (width : Nat) : Walk Nat := Bytes.toNat <$> take width

/-- Walks over one byte. -/
def byte : Walk UInt8 := UInt8.ofNat <$> nat 1

/-- Walks over an unsigned number of four bytes. -/
def uint32 : Walk UInt32 := UInt32.ofNat <$> nat 4

/-- Walks over a signed number of four bytes. -/
def int32 : Walk Int32 := (fun n => (UInt32.ofNat n).toInt32) <$> nat 4

/-- Walks over a signed number of eight bytes. -/
def int64 : Walk Int64 := (fun n => (UInt64.ofNat n).toInt64) <$> nat 8

/-- Walks over the eight bytes of a number. -/
def binary64 : Walk Binary64 := (fun n => ⟨UInt64.ofNat n⟩) <$> nat 8

/-- Walks over a text of `count` bytes, which are taken before they are checked. -/
def text (count : Nat) : Walk String := do
  let bytes ← take count
  match Utf8.decode bytes with
  | .ok text => return text
  | .error fault => fail (.invalidText fault.message)

/-- Walks over the kind of the value that follows. -/
def dataType : Walk DataType := do
  let tag ← byte
  match DataType.ofTag? tag with
  | some kind => return kind
  | none => fail (.unknownType tag)

/-- Walks over the body of a value of a known kind. -/
def body : DataType → Walk Value
  | .nil => return .nil
  | .string => do
    let count ← nat 4
    return .string (← text count)
  | .integer => return .integer (← int64)
  | .number => return .number (← binary64)
  | .boolean => return .boolean ((← byte) == 1)
  | .bytes => do
    let count ← nat 4
    return .bytes ⟨← take count⟩

/-- Walks over one value, or goes back to its tag. -/
def value : Walk Value := orReturn do
  let kind ← dataType
  body kind

/-- Walks over a text behind a one-byte length, or goes back to its length. -/
def shortText : Walk String := orReturn do
  let count ← byte
  text count.toNat

/-- A walk that fails ends where it stands. -/
theorem bind_apply (walk : Walk α) (next : α → Walk β) (payload : List UInt8) (position : Nat) :
    (walk >>= next) payload position =
      match walk payload position with
      | (.ok item, reached) => next item payload reached
      | (.error reason, reached) => (.error reason, reached) := by
  simp only [bind, ReaderT.bind, ExceptT.bind, ExceptT.mk, StateT.bind, ExceptT.bindCont]
  obtain ⟨result, reached⟩ := walk payload position
  cases result <;> rfl

/-! ### Walks and parsers -/

/-- From every position a walk comes to the result of the parser, and it stands in front of what the
parser leaves if it succeeds. -/
structure Follows (walk : Walk α) (parser : Parser ValueError α) : Prop where
  /-- Where the parser succeeds the walk does, and stands in front of what is left. -/
  ok : ∀ payload position item rest, position ≤ payload.length →
    parser (payload.drop position) = .ok (item, rest) →
      ∃ reached, reached ≤ payload.length ∧ payload.drop reached = rest ∧
        walk payload position = (.ok item, reached)
  /-- Where the parser fails the walk does, for the same reason. -/
  error : ∀ payload position reason, position ≤ payload.length →
    parser (payload.drop position) = .error reason →
      ∃ reached, walk payload position = (.error reason, reached)

namespace Follows

variable {walk : Walk α} {parser : Parser ValueError α}

/-- A walk that reads nothing follows the parser that does. -/
theorem pure (item : α) : (Pure.pure item : Walk α).Follows (Pure.pure item) where
  ok payload position found rest hposition hread := by
    obtain ⟨rfl, rfl⟩ := Prod.mk.inj (Except.ok.inj hread)
    exact ⟨position, hposition, rfl, rfl⟩
  error payload position reason hposition hread := by cases hread

/-- A walk that fails follows the parser that does. -/
theorem fail (reason : ValueError) : (Walk.fail reason : Walk α).Follows (.fail reason) where
  ok payload position item rest hposition hread := by cases hread
  error payload position found hposition hread := by
    obtain rfl := Except.error.inj hread
    exact ⟨position, rfl⟩

/-- Walks one after another follow the parsers one after another. -/
theorem bind (h : walk.Follows parser) {next : α → Walk β} {after : α → Parser ValueError β}
    (hnext : ∀ item, (next item).Follows (after item)) :
    (walk >>= next).Follows (parser >>= after) where
  ok payload position found rest hposition hread := by
    rw [Parser.bind_apply] at hread
    cases hfirst : parser (payload.drop position) with
    | error reason => rw [hfirst] at hread; cases hread
    | ok result =>
      obtain ⟨item, middle⟩ := result
      rw [hfirst] at hread
      obtain ⟨reached, hreached, rfl, hwalk⟩ := h.ok payload position item middle hposition hfirst
      rw [bind_apply, hwalk]
      exact (hnext item).ok payload reached found rest hreached hread
  error payload position reason hposition hread := by
    rw [bind_apply]
    rcases Parser.bind_eq_error_iff.mp hread with hfirst | ⟨item, middle, hfirst, hsecond⟩
    · obtain ⟨reached, hwalk⟩ := h.error payload position reason hposition hfirst
      exact ⟨reached, by rw [hwalk]⟩
    · obtain ⟨reached, hreached, rfl, hwalk⟩ := h.ok payload position item middle hposition hfirst
      obtain ⟨last, hlast⟩ := (hnext item).error payload reached reason hreached hsecond
      exact ⟨last, by rw [hwalk, ← hlast]⟩

/-- A change of the result is followed as well. -/
theorem map (f : α → β) (h : walk.Follows parser) : (f <$> walk).Follows (f <$> parser) := by
  rw [map_eq_pure_bind, map_eq_pure_bind]
  exact h.bind fun item => pure (f item)

end Follows

/-- Taking bytes follows the parser of bytes. -/
theorem take_follows (count : Nat) : (take count).Follows (readBytes count) where
  ok payload position item rest hposition hread := by
    obtain ⟨spelled, ⟨hspelled, rfl⟩, hdrop⟩ := (readBytes_reads count _ item rest).mp hread
    rw [hspelled] at hdrop
    have hlength := congrArg List.length hdrop
    rw [List.length_drop, List.length_append] at hlength
    refine ⟨position + item.length, by omega, ?_, ?_⟩
    · rw [← List.drop_drop, hdrop, List.drop_left]
    · rw [take, if_neg (by omega), hdrop, List.take_left]
  error payload position reason hposition hread := by
    obtain rfl := readBytes_needsMore count _ reason hread
    refine ⟨position, if_pos ?_⟩
    by_contra hlong
    have hsplit : readBytes count (payload.drop position) =
        .ok ((payload.drop position).take count, (payload.drop position).drop count) := by
      rw [readBytes_reads]
      exact ⟨_, ⟨rfl, by simp; omega⟩, (List.take_append_drop count _).symm⟩
    rw [hsplit] at hread
    cases hread

/-- Reading a number follows its parser. -/
theorem nat_follows (width : Nat) : (nat width).Follows (readNat width) :=
  (take_follows width).map Bytes.toNat

/-- Reading a byte follows its parser. -/
theorem byte_follows : byte.Follows readByte := (nat_follows 1).map UInt8.ofNat

/-- Reading a text follows its parser. -/
theorem text_follows (count : Nat) : (text count).Follows (readText count) := by
  refine (take_follows count).bind fun bytes => ?_
  cases Utf8.decode bytes with
  | ok text => exact .pure text
  | error fault => exact .fail _

/-- Reading a type tag follows its parser. -/
theorem dataType_follows : dataType.Follows readDataType := by
  refine byte_follows.bind fun tag => ?_
  cases DataType.ofTag? tag with
  | some kind => exact .pure kind
  | none => exact .fail _

/-- Reading the body of a value follows its parser. -/
theorem body_follows (kind : DataType) : (body kind).Follows (Value.bodyParser kind) := by
  cases kind with
  | nil => exact .pure _
  | string => exact (nat_follows 4).bind fun count => (text_follows count).bind fun _ => .pure _
  | integer => exact ((nat_follows 8).map _).bind fun _ => .pure _
  | number => exact ((nat_follows 8).map _).bind fun _ => .pure _
  | boolean => exact byte_follows.bind fun _ => .pure _
  | bytes => exact (nat_follows 4).bind fun count => (take_follows count).bind fun _ => .pure _

/-! ### Walks and cursors -/

/-- From the position of a cursor the walk leaves the result and the position of the cursor. -/
def Agrees (walk : Walk α) (parser : Parser ValueError α) : Prop :=
  ∀ cursor : Cursor, walk cursor.payload cursor.position =
    ((cursor.read parser).1, (cursor.read parser).2.position)

/-- A walk that goes back where it fails agrees with a cursor, which does not move then. -/
theorem Follows.orReturn_agrees {walk : Walk α} {parser : Parser ValueError α}
    (h : walk.Follows parser) : walk.orReturn.Agrees parser := by
  intro cursor
  have hrest : cursor.rest = cursor.payload.drop cursor.position := rfl
  unfold orReturn Cursor.read
  cases hread : parser cursor.rest with
  | ok result =>
    obtain ⟨item, rest⟩ := result
    obtain ⟨reached, hreached, rfl, hwalk⟩ := h.ok _ _ item rest cursor.position_le hread
    rw [hwalk]
    dsimp only
    rw [List.length_drop, Nat.sub_sub_self hreached]
  | error reason =>
    obtain ⟨reached, hwalk⟩ := h.error _ _ reason cursor.position_le hread
    rw [hwalk]

/-- A part that is missing was not begun, so there is no way back to go. -/
theorem orReturn_take (count : Nat) : (take count).orReturn = take count := by
  funext payload position
  unfold orReturn
  cases hwalk : take count payload position with
  | mk result reached =>
    cases result with
    | ok item => rfl
    | error reason =>
      unfold take at hwalk
      split at hwalk <;> cases hwalk
      rfl

namespace Agrees

variable {walk : Walk α} {parser : Parser ValueError α}

/-- A change of the result leaves a walk in agreement. -/
theorem map (f : α → β) (h : walk.Agrees parser) : (f <$> walk).Agrees (f <$> parser) := by
  intro cursor
  rw [map_eq_pure_bind, map_eq_pure_bind, bind_apply, h cursor]
  unfold Cursor.read
  rw [Parser.bind_apply]
  cases parser cursor.rest <;> rfl

end Agrees

/-- Reading a number agrees with its parser, position included. -/
theorem nat_agrees (width : Nat) : (nat width).Agrees (readNat width) :=
  .map Bytes.toNat (orReturn_take width ▸ (take_follows width).orReturn_agrees)

/-- Reading a byte agrees with its parser. -/
theorem byte_agrees : byte.Agrees readByte := (nat_agrees 1).map _

/-- Reading an unsigned 32 bit number agrees with its parser. -/
theorem uint32_agrees : uint32.Agrees readUInt32 := (nat_agrees 4).map _

/-- Reading a signed 32 bit number agrees with its parser. -/
theorem int32_agrees : int32.Agrees readInt32 := (nat_agrees 4).map _

/-- Reading a value agrees with its parser. -/
theorem value_agrees : value.Agrees Value.parser :=
  (dataType_follows.bind body_follows).orReturn_agrees

/-- Reading a short text agrees with its parser. -/
theorem shortText_agrees : shortText.Agrees readShortText :=
  (byte_follows.bind fun count => text_follows count.toNat).orReturn_agrees

end Walk

end BeeProtocol
