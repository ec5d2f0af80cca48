/-!
# Strict UTF-8

Text travels as UTF-8 without overlong forms, surrogates or code points past U+10FFFF. `Utf8.decode`
reads a whole byte string or says where the first ill-formed sequence starts and how long it is.
-/

namespace BeeProtocol.Utf8

/-- The first ill-formed sequence: where it starts, and its length unless the bytes end inside it.
-/
structure Fault where
  /-- Where it starts. -/
  index : Nat
  /-- How long it is. -/
  length : Option Nat
  deriving DecidableEq

/-- The wording of a fault. -/
def Fault.message (fault : Fault) : String :=
  match fault.length with
  | some length => s!"invalid utf-8 sequence of {length} bytes from index {fault.index}"
  | none => s!"incomplete utf-8 byte sequence from index {fault.index}"

/-- A byte that continues a character. -/
def isContinuation (byte : UInt8) : Bool := 0x80 ≤ byte && byte ≤ 0xBF

/-- How many bytes a character takes whose first byte is `lead`; 0 if no character starts so. -/
def width (lead : UInt8) : Nat :=
  if lead < 0x80 then 1
  else if lead < 0xC2 then 0
  else if lead < 0xE0 then 2
  else if lead < 0xF0 then 3
  else if lead < 0xF5 then 4
  else 0

/-- The second bytes that may follow `lead`. The narrower ranges exclude overlong forms, surrogates
and code points past the last one. -/
def mayFollow (lead second : UInt8) : Bool :=
  if lead = 0xE0 then 0xA0 ≤ second && second ≤ 0xBF
  else if lead = 0xED then 0x80 ≤ second && second ≤ 0x9F
  else if lead = 0xF0 then 0x90 ≤ second && second ≤ 0xBF
  else if lead = 0xF4 then 0x80 ≤ second && second ≤ 0x8F
  else isContinuation second

/-- The payload bits of a continuation byte. -/
def low (byte : UInt8) : Nat := byte.toNat % 64

/-- Reads characters up to the end or the first fault; `index` bytes are already read as `done`,
last character first. -/
def decodeFrom (index : Nat) (done : List Char) : List UInt8 → Except Fault (List Char)
  | [] => .ok done.reverse
  | a :: rest =>
    match width a with
    | 1 => decodeFrom (index + 1) (Char.ofNat a.toNat :: done) rest
    | 2 =>
      match rest with
      | [] => .error ⟨index, none⟩
      | b :: rest =>
        if mayFollow a b then
          decodeFrom (index + 2) (Char.ofNat (a.toNat % 32 * 64 + low b) :: done) rest
        else .error ⟨index, some 1⟩
    | 3 =>
      match rest with
      | [] => .error ⟨index, none⟩
      | [b] => .error ⟨index, if mayFollow a b then none else some 1⟩
      | b :: c :: rest =>
        if !mayFollow a b then .error ⟨index, some 1⟩
        else if !isContinuation c then .error ⟨index, some 2⟩
        else
          decodeFrom (index + 3)
            (Char.ofNat (a.toNat % 16 * 4096 + low b * 64 + low c) :: done) rest
    | 4 =>
      match rest with
      | [] => .error ⟨index, none⟩
      | [b] => .error ⟨index, if mayFollow a b then none else some 1⟩
      | [b, c] =>
        .error ⟨index,
          if !mayFollow a b then some 1 else if !isContinuation c then some 2 else none⟩
      | b :: c :: d :: rest =>
        if !mayFollow a b then .error ⟨index, some 1⟩
        else if !isContinuation c then .error ⟨index, some 2⟩
        else if !isContinuation d then .error ⟨index, some 3⟩
        else
          decodeFrom (index + 4)
            (Char.ofNat (a.toNat % 8 * 262144 + low b * 4096 + low c * 64 + low d) :: done) rest
    | _ => .error ⟨index, some 1⟩

/-- The text that the bytes spell, or their first fault. -/
def decode (bytes : List UInt8) : Except Fault String :=
  (decodeFrom 0 [] bytes).map String.ofList

/-- The bytes that spell a text. -/
def encode (text : String) : List UInt8 :=
  text.toList.flatMap String.utf8EncodeChar

end BeeProtocol.Utf8
