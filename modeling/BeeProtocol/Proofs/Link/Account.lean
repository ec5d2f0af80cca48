import BeeProtocol.Link.Basic
import BeeProtocol.Proofs.Bytes
import BeeProtocol.Proofs.Statement.Channel

/-!
# What one handler is given

Of all that happens on a link, three things concern the handlers of statements: that a handler is
registered, that the reader takes a frame out of the bytes, and that a handler is given a payload.
The account of one handler keeps the frames since its registration and the payloads that it was
given. A frame is addressed to a statement if it has the type of statement responses and its payload
starts with the statement's id.
-/

namespace BeeProtocol

/-- What happens on a link to the handlers of statements. -/
inductive Happening
  /-- A handler is put behind the others that wait. -/
  | registered (key : Nat)
  /-- The reader takes a frame out of the bytes. -/
  | read (frame : Frame)
  /-- A handler is given a payload. -/
  | handed (key : Nat) (payload : List UInt8)

/-- What has happened with regard to one handler. -/
structure Account where
  /-- Whether the handler has joined the queue. -/
  isRegistered : Bool
  /-- The frames that were read since it was registered. -/
  frames : List Frame
  /-- The payloads that it was given. -/
  handed : List (List UInt8)

namespace Account

/-- Nothing has happened. -/
def empty : Account := ⟨false, [], []⟩

/-- The account of the handler under a key after one more happening. -/
def note (key : Nat) (account : Account) : Happening → Account
  | .registered other => if other = key then { account with isRegistered := true } else account
  | .read frame =>
    if account.isRegistered then { account with frames := account.frames ++ [frame] } else account
  | .handed other payload =>
    if other = key then { account with handed := account.handed ++ [payload] } else account

/-- The account of the handler under a key. -/
def ofTrace (key : Nat) (trace : List Happening) : Account := trace.foldl (note key) empty

end Account

namespace Frame

/-- Whether a frame is addressed to the statement with an id. -/
def isFor (id : UInt32) (frame : Frame) : Bool :=
  frame.type == 3 && frame.payload.take 4 == Bytes.ofNat 4 id.toNat

/-- The payloads of the frames that are addressed to a statement. -/
def addressed (id : UInt32) (frames : List Frame) : List (List UInt8) :=
  (frames.filter (isFor id)).map (·.payload)

/-- The payloads for an id in two parts add up. -/
theorem addressed_append (id : UInt32) (first second : List Frame) :
    addressed id (first ++ second) = addressed id first ++ addressed id second := by
  simp [addressed]

/-- A frame that is for an id brings its payload. -/
theorem addressed_singleton (id : UInt32) (frame : Frame) :
    addressed id [frame] = if frame.isFor id then [frame.payload] else [] := by
  cases hfor : frame.isFor id <;> simp [addressed, hfor]

/-- A payload shows an id exactly if it starts with the bytes of the id. -/
theorem peekId_eq_some_iff {id : UInt32} {payload : List UInt8} :
    StatementResponse.peekId payload = some id ↔ payload.take 4 = Bytes.ofNat 4 id.toNat := by
  have hid : id.toNat < 256 ^ 4 := id.toNat_lt
  rw [StatementResponse.peekId, Bytes.split?]
  split
  · rename_i hlength
    have htake : (payload.take 4).length = 4 := by
      have := (Bytes.hasAtLeast_iff 4 payload).mp hlength
      simp only [List.length_take]
      omega
    have hfront := Bytes.toNat_lt (payload.take 4)
    rw [htake] at hfront
    rw [Bytes.eq_ofNat_iff htake hid, Option.map_some, Option.some.injEq, ← UInt32.toNat_inj,
      UInt32.toNat_ofNat_of_lt' hfront]
  · rename_i hlength
    have hshort : ¬ 4 ≤ payload.length := fun h => hlength ((Bytes.hasAtLeast_iff 4 payload).mpr h)
    constructor
    · simp
    · intro htake
      have hcount := congrArg List.length htake
      simp only [List.length_take, Bytes.length_ofNat] at hcount
      omega

/-- The payload of a frame that is addressed to a statement shows the id of the statement. -/
theorem peekId_of_addressed {id : UInt32} {frames : List Frame} {payload : List UInt8}
    (h : payload ∈ addressed id frames) : StatementResponse.peekId payload = some id := by
  obtain ⟨frame, hframe, rfl⟩ := List.mem_map.mp h
  have hfor : frame.isFor id := (List.mem_filter.mp hframe).2
  unfold isFor at hfor
  simp only [Bool.and_eq_true, beq_iff_eq] at hfor
  exact peekId_eq_some_iff.mpr hfor.2

end Frame

/-! ### Payloads up to the end -/

namespace Signal

/-- Whether a payload ends its statement. -/
def endsWith (payload : List UInt8) : Bool := (ofPayload payload).ends

/-- The payloads up to the first one that ends the statement, with it. -/
def upToEnd : List (List UInt8) → List (List UInt8)
  | [] => []
  | payload :: payloads =>
    if endsWith payload then [payload] else payload :: upToEnd payloads

/-- Whether a payload ends the statement is the same as whether its signal does. -/
theorem isOver_map (payloads : List (List UInt8)) :
    isOver (payloads.map ofPayload) = payloads.any endsWith := by
  rw [isOver, List.any_map]
  rfl

/-- Payloads that do not end the statement all count. -/
theorem upToEnd_append {first : List (List UInt8)} (h : first.any endsWith = false)
    (second : List (List UInt8)) : upToEnd (first ++ second) = first ++ upToEnd second := by
  induction first with
  | nil => rfl
  | cons payload first ih =>
    rw [List.any_cons, Bool.or_eq_false_iff] at h
    rw [List.cons_append, upToEnd, if_neg (by simp [h.1]), ih h.2, List.cons_append]

/-- Payloads of which none ends the statement are all up to its end. -/
theorem upToEnd_of_not_any {payloads : List (List UInt8)} (h : payloads.any endsWith = false) :
    upToEnd payloads = payloads := by
  simpa [upToEnd] using upToEnd_append h []

/-- One more payload counts, whether it ends the statement or not. -/
theorem upToEnd_append_singleton {first : List (List UInt8)} (h : first.any endsWith = false)
    (payload : List UInt8) : upToEnd (first ++ [payload]) = first ++ [payload] := by
  have hlast : upToEnd [payload] = [payload] := by
    unfold upToEnd
    split <;> rfl
  rw [upToEnd_append h, hlast]

/-- What counts is a beginning of the payloads. -/
theorem upToEnd_prefix (payloads : List (List UInt8)) : upToEnd payloads <+: payloads := by
  induction payloads with
  | nil => exact List.prefix_refl []
  | cons payload payloads ih =>
    rw [upToEnd]
    split
    · exact List.prefix_append [payload] payloads
    · exact (List.prefix_cons_inj payload).mpr ih

/-- Nothing counts after the end. -/
theorem upToEnd_append_of_any {first : List (List UInt8)} (h : first.any endsWith)
    (second : List (List UInt8)) : upToEnd (first ++ second) = upToEnd first := by
  induction first with
  | nil => simp at h
  | cons payload first ih =>
    rw [List.cons_append, upToEnd, upToEnd]
    cases hends : endsWith payload with
    | true => rfl
    | false =>
      have hlater : first.any endsWith := by simpa [hends] using h
      rw [ih hlater]

end Signal

end BeeProtocol
