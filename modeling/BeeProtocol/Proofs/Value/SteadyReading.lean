import BeeProtocol.Proofs.Value.Walking

/-!
# Item after item

Values, texts and numbers may be read from one payload in any order, also after reads that failed. A
read moves past the bytes of its item or not at all. What is read does not depend on bytes that come
later, except where a read ran into the end of the payload.
-/

namespace BeeProtocol.Cursor

/-- What can be asked for in one step. -/
inductive Request
  | value
  | shortText
  | byte
  | uint32
  | int32

/-- What one step can give. -/
inductive Item
  | value (v : Value)
  | text (t : String)
  | byte (b : UInt8)
  | uint32 (n : UInt32)
  | int32 (n : Int32)

/-- What an item answers. -/
def Item.request : Item → Request
  | value _ => .value
  | text _ => .shortText
  | byte _ => .byte
  | uint32 _ => .uint32
  | int32 _ => .int32

/-- The bytes that an item is read from. -/
def Item.Spells : Item → List UInt8 → Prop
  | value v, spelled => v.Spells spelled
  | text t, spelled => (Utf8.encode t).length < 256 ∧
    spelled = UInt8.ofNat (Utf8.encode t).length :: Utf8.encode t
  | byte b, spelled => spelled = [b]
  | uint32 n, spelled => spelled = Bytes.ofNat 4 n.toNat
  | int32 n, spelled => spelled = Bytes.ofNat 4 n.toUInt32.toNat

namespace Request

/-- How an item is read. -/
def parser : Request → Parser ValueError Item
  | value => .value <$> Value.parser
  | shortText => .text <$> readShortText
  | byte => .byte <$> readByte
  | uint32 => .uint32 <$> readUInt32
  | int32 => .int32 <$> readInt32

/-- How an item is walked over. Only what has parts needs a way back. -/
def walk : Request → Walk Item
  | value => .value <$> Walk.value
  | shortText => .text <$> Walk.shortText
  | byte => .byte <$> Walk.byte
  | uint32 => .uint32 <$> Walk.uint32
  | int32 => .int32 <$> Walk.int32

/-- Exactly the spellings of the items that answer a request are read. -/
theorem parser_reads (request : Request) :
    request.parser.Reads fun item spelled => item.request = request ∧ item.Spells spelled := by
  cases request with
  | value =>
    refine (Value.parser_reads.map Item.value).congr fun item spelled => ?_
    cases item <;> simp [Item.request, Item.Spells]
  | shortText =>
    refine (readShortText_reads.map Item.text).congr fun item spelled => ?_
    cases item <;> simp [Item.request, Item.Spells]
  | byte =>
    refine (readByte_reads.map Item.byte).congr fun item spelled => ?_
    cases item <;> simp [Item.request, Item.Spells]
  | uint32 =>
    refine (readUInt32_reads.map Item.uint32).congr fun item spelled => ?_
    cases item <;> simp [Item.request, Item.Spells]
  | int32 =>
    refine (readInt32_reads.map Item.int32).congr fun item spelled => ?_
    cases item <;> simp [Item.request, Item.Spells]

/-- What is read and any failure but the end of the bytes stand whatever bytes follow. -/
theorem parser_firm (request : Request) : request.parser.Firm .unexpectedEnd := by
  cases request with
  | value => exact Value.parser_firm.map _
  | shortText => exact Value.readShortText_firm.map _
  | byte => exact readByte_firm.map _
  | uint32 => exact ((readNat_firm 4).map _).map _
  | int32 => exact ((readNat_firm 4).map _).map _

/-- An item is walked over with the result and the position of a cursor. -/
theorem walk_agrees (request : Request) : request.walk.Agrees request.parser := by
  cases request with
  | value => exact Walk.value_agrees.map _
  | shortText => exact Walk.shortText_agrees.map _
  | byte => exact Walk.byte_agrees.map _
  | uint32 => exact Walk.uint32_agrees.map _
  | int32 => exact Walk.int32_agrees.map _

end Request

variable {cursor longer : Cursor} {more : List UInt8} {request : Request}

/-! ### Sequences of reads -/

/-- The cursor after some reads. -/
def after (cursor : Cursor) (requests : List Request) : Cursor :=
  requests.foldl (fun cursor request => (cursor.read request.parser).2) cursor

/-- What reads come to one after another, each with the position that it leaves. -/
def answers (cursor : Cursor) : List Request → List (Except ValueError Item × Nat)
  | [] => []
  | request :: requests =>
    let (result, next) := cursor.read request.parser
    (result, next.position) :: next.answers requests

/-- The later requests are answered from where the others have left off. -/
theorem answers_append (cursor : Cursor) (requests later : List Request) :
    cursor.answers (requests ++ later) =
      cursor.answers requests ++ (cursor.after requests).answers later := by
  induction requests generalizing cursor with
  | nil => rfl
  | cons request requests ih =>
    rw [List.cons_append, answers, answers]
    dsimp only
    rw [ih, List.cons_append]
    rfl

/-- Reading leaves the payload. -/
theorem payload_read {α : Type} (cursor : Cursor) (parser : Parser ValueError α) :
    (cursor.read parser).2.payload = cursor.payload := by
  unfold read
  cases parser cursor.rest <;> rfl

/-- What walks from a position come to one after another, each with the position that it leaves. -/
def walkAll (payload : List UInt8) (position : Nat) :
    List Request → List (Except ValueError Item × Nat)
  | [] => []
  | request :: requests =>
    let (result, reached) := request.walk payload position
    (result, reached) :: walkAll payload reached requests

/-- A walk through the payload gives the answers of the cursor. -/
theorem walkAll_eq_answers (cursor : Cursor) (requests : List Request) :
    walkAll cursor.payload cursor.position requests = cursor.answers requests := by
  induction requests generalizing cursor with
  | nil => rfl
  | cons request requests ih =>
    rw [walkAll, answers, request.walk_agrees cursor]
    dsimp only
    rw [← ih, payload_read]

/-! ### More bytes -/

/-- A cursor stands at the same place of a payload with more bytes at its end. -/
structure Extends (cursor : Cursor) (more : List UInt8) (longer : Cursor) : Prop where
  /-- The payload goes on where the other one ends. -/
  payload : longer.payload = cursor.payload ++ more
  /-- The position is the same. -/
  position : longer.position = cursor.position

/-- A longer payload has the same rest, and more behind it. -/
theorem Extends.rest (h : cursor.Extends more longer) : longer.rest = cursor.rest ++ more := by
  rw [Cursor.rest, h.payload, h.position, List.drop_append_of_le_length cursor.position_le]
  rfl

/-- A read comes to the same with more bytes, unless it ran into the end. -/
theorem Extends.read {α : Type} {parser : Parser ValueError α} (hfirm : parser.Firm .unexpectedEnd)
    (h : cursor.Extends more longer) (hread : (cursor.read parser).1 ≠ .error .unexpectedEnd) :
    (longer.read parser).1 = (cursor.read parser).1 ∧
      (cursor.read parser).2.Extends more (longer.read parser).2 := by
  unfold Cursor.read at hread ⊢
  cases hparse : parser cursor.rest with
  | ok result =>
    obtain ⟨item, rest⟩ := result
    have hlonger := hfirm.ok _ item rest more hparse
    rw [← h.rest] at hlonger
    rw [hlonger]
    refine ⟨rfl, h.payload, ?_⟩
    dsimp only
    rw [h.payload, List.length_append, List.length_append, Nat.add_sub_add_right]
  | error reason =>
    rw [hparse] at hread
    have hlonger := hfirm.error _ reason more hparse fun hreason => hread (by rw [hreason])
    rw [← h.rest] at hlonger
    rw [hlonger]
    exact ⟨rfl, h⟩

/-- A cursor at the start of a longer payload extends the one at the start of the payload. -/
theorem extends_ofList (payload more : List UInt8) :
    (ofList payload).Extends more (ofList (payload ++ more)) := ⟨rfl, rfl⟩

/-- Whether a read ran into the end of the payload. -/
def ranOut (answer : Except ValueError Item × Nat) : Bool := answer.1 matches .error .unexpectedEnd

/-- An answer that has not run out is no unexpected end. -/
theorem ne_of_ranOut {answer : Except ValueError Item × Nat} (h : ranOut answer = false) :
    answer.1 ≠ .error .unexpectedEnd := by
  intro hanswer
  simp [ranOut, hanswer] at h

/-- Up to the first read that ran into the end, reads come to the same with more bytes. -/
theorem Extends.takeWhile_answers (h : cursor.Extends more longer) (requests : List Request) :
    (cursor.answers requests).takeWhile (!ranOut ·) <+: longer.answers requests := by
  induction requests generalizing cursor longer with
  | nil => exact List.nil_prefix
  | cons request requests ih =>
    rw [answers, answers]
    dsimp only
    rw [List.takeWhile_cons]
    split
    · rename_i hgoes
      obtain ⟨hsame, hnext⟩ := h.read request.parser_firm (ne_of_ranOut (by simpa using hgoes))
      rw [hsame, hnext.position]
      exact List.cons_prefix_cons.mpr ⟨rfl, ih hnext⟩
    · exact List.nil_prefix

/-- Where all reads came to the same with more bytes, so do the cursors after them. -/
theorem Extends.after (h : cursor.Extends more longer) {requests : List Request}
    (hsame : longer.answers requests = cursor.answers requests) :
    (cursor.after requests).Extends more (longer.after requests) := by
  induction requests generalizing cursor longer with
  | nil => exact h
  | cons request requests ih =>
    rw [answers, answers] at hsame
    obtain ⟨hfirst, hrest⟩ := List.cons.inj hsame
    refine ih ⟨?_, congrArg Prod.snd hfirst⟩ hrest
    rw [payload_read, payload_read, h.payload]

/-! ### The cursor of a payload -/

/-- How a sequence of reads on one payload fares. -/
structure ReadsSteadily (payload : List UInt8) (requests : List Request) : Prop where
  /-- The cursor stays in the payload, and what it has passed and what remains make it up. -/
  within : ((ofList payload).after requests).position ≤ payload.length ∧
    ((ofList payload).after requests).position + ((ofList payload).after requests).remaining =
      payload.length
  /-- A read that fails leaves it where it is. -/
  stays : ∀ (request : Request) reason next,
    ((ofList payload).after requests).read request.parser = (.error reason, next) →
      next = (ofList payload).after requests
  /-- A read that succeeds moves it past exactly the bytes of the item, which answers the
  request. -/
  moves : ∀ (request : Request) item next,
    ((ofList payload).after requests).read request.parser = (.ok item, next) →
      item.request = request ∧ ∃ spelled rest, item.Spells spelled ∧
        ((ofList payload).after requests).rest = spelled ++ rest ∧
        ((ofList payload).after requests).Advances spelled.length next
  /-- Walks that go part by part and back where they fail leave the same results and positions. -/
  walks : walkAll payload 0 requests = (ofList payload).answers requests
  /-- Up to the first read that ran into the end, the results and positions stand whatever bytes
  follow. -/
  stands : ∀ more : List UInt8, ((ofList payload).answers requests).takeWhile (!ranOut ·) <+:
    (ofList (payload ++ more)).answers requests
  /-- If they do, the next one can only come to something else if it ran into the end. -/
  changes : ∀ (more : List UInt8) (request : Request),
    (ofList (payload ++ more)).answers requests = (ofList payload).answers requests →
    (ofList (payload ++ more)).answers (requests ++ [request]) ≠
        (ofList payload).answers (requests ++ [request]) →
      (((ofList payload).after requests).read request.parser).1 = .error .unexpectedEnd

/-- Requests leave the payload. -/
theorem payload_after (cursor : Cursor) (requests : List Request) :
    (cursor.after requests).payload = cursor.payload := by
  induction requests generalizing cursor with
  | nil => rfl
  | cons request requests ih => exact (ih _).trans (cursor.payload_read _)

/-- What was read and what remains is all there is. -/
theorem position_add_remaining (cursor : Cursor) :
    cursor.position + cursor.remaining = cursor.payload.length := by
  have hwithin := cursor.position_le
  rw [remaining]
  omega

/-- Reads of a payload are atomic, and they are stable under bytes that come later. -/
theorem readsSteadily (payload : List UInt8) (requests : List Request) :
    ReadsSteadily payload requests where
  within := by
    have hpayload : ((ofList payload).after requests).payload = payload :=
      payload_after _ requests
    have hsum := position_add_remaining ((ofList payload).after requests)
    rw [hpayload] at hsum
    exact ⟨by omega, hsum⟩
  stays := fun request reason next hread => (read_eq_error_iff.mp hread).2
  moves := fun request item next hread => by
    obtain ⟨spelled, rest, ⟨hrequest, hspelled⟩, hrest, hnext⟩ :=
      (read_eq_ok_iff request.parser_reads).mp hread
    exact ⟨hrequest, spelled, rest, hspelled, hrest, hnext⟩
  walks := walkAll_eq_answers (ofList payload) requests
  stands := fun more => (extends_ofList payload more).takeWhile_answers requests
  changes := fun more request hsame hdiffers => by
    by_contra hread
    obtain ⟨hresult, hnext⟩ := ((extends_ofList payload more).after hsame).read
      request.parser_firm hread
    refine hdiffers ?_
    rw [answers_append, answers_append, hsame, answers, answers]
    dsimp only
    rw [hresult, hnext.position]
    rfl

-- The length of the text and the tag of the value are there, and are read again after the failure.
example :
    (ofList [1, 255, 9, 0, 0, 1]).answers [.shortText, .byte, .uint32, .value, .byte] =
      [(.error (.invalidText "invalid utf-8 sequence of 1 bytes from index 0"), 0),
        (.ok (.byte 1), 1), (.ok (.uint32 0xFF090000), 5), (.error .unexpectedEnd, 5),
        (.ok (.byte 1), 6)] :=
  rfl

end BeeProtocol.Cursor
