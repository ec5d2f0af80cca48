import BeeProtocol.Proofs.Link.Account
import BeeProtocol.Proofs.Link.Custody

/-!
# Where a handler stands

The handler of a statement is in one place at a time: with the call that will register it, among
those that wait, in the hands of the reader, or nowhere any more. Each place goes with what its
account tells: a handler that waits was given all payloads that were addressed to it, one that the
reader holds lacks at most the payload that is held with it, and one that is over was given those up
to the end.
-/

namespace BeeProtocol

/-- The key of the handler that a call at this stage will register. -/
def Stage.handler? : Stage → Option Nat
  | called (.send _ (some handler)) => handler.statement?
  | sending _ (.inLine _ (some handler)) => handler.statement?
  | _ => none

/-- What the reader holds of a statement. -/
inductive Hand
  | empty
  /-- The handler and a payload that it will be given. -/
  | payload (payload : List UInt8)
  /-- The handler and a row that is to be stored. -/
  | row

/-- The payload that the reader is about to hand over. -/
def Hand.payloads : Hand → List (List UInt8)
  | .payload bytes => [bytes]
  | _ => []

/-- Whether the reader holds a handler. -/
def Hand.holds : Hand → Bool
  | .empty => false
  | _ => true

/-- What the reader holds of the statement under a key. -/
def ReaderStage.hand (key : Nat) : ReaderStage → Hand
  | decoding (.statement other) payload => if other = key then .payload payload else .empty
  | storing other _ => if other = key then .row else .empty
  | _ => .empty

/-- A reader that decodes a payload for another handler holds nothing of the statement. -/
theorem ReaderStage.hand_decoding {handler : Handler} {key : Nat} (h : handler ≠ .statement key)
    (payload : List UInt8) : (decoding handler payload).hand key = .empty := by
  cases handler with
  | reply other => rfl
  | statement other =>
    have hother : other ≠ key := by
      rintro rfl
      exact h rfl
    exact if_neg hother

/-- How many calls carry a handler, how often it waits, and what the reader holds with it. -/
structure Places where
  /-- How many calls carry the handler. -/
  carried : Nat
  /-- How often it is in the queue. -/
  waiting : Nat
  /-- What the reader holds with it. -/
  hand : Hand

/-- The entry of a statement whose handler was given these payloads. -/
def Account.entry (account : Account) (id : UInt32) :
    StatementEntry :=
  (id, Signal.answerOf (account.handed.map Signal.ofPayload))

/-- A statement is done when one of the payloads ended it. -/
theorem Account.entry_isDone (account : Account) (id : UInt32) :
    ((account.entry id).2.1 == .done) = account.handed.any Signal.endsWith := by
  rw [← Signal.isOver_map]
  unfold entry Signal.answerOf Signal.phaseOf
  cases Signal.isOver (account.handed.map Signal.ofPayload) with
  | true => rfl
  | false => cases (Signal.headerOf (account.handed.map Signal.ofPayload)).isSome <;> rfl

/-- Where a handler is and what its account tells, given the entry of its statement and whether the
link is closed. -/
inductive Standing (account : Account) : Places →
    Option StatementEntry → Bool → Prop
  /-- There is no such statement yet. -/
  | absent {closed} (haccount : account = .empty) : Standing account ⟨0, 0, .empty⟩ none closed
  /-- A call carries the handler. -/
  | carried {closed} (id : UInt32) (haccount : account = .empty) :
    Standing account ⟨1, 0, .empty⟩ (some (account.entry id)) closed
  /-- The handler was let go of before it was registered. -/
  | refused {closed entry} (haccount : account = .empty) :
    Standing account ⟨0, 0, .empty⟩ (some entry) closed
  /-- The handler waits for frames. -/
  | waiting (id : UInt32) (hregistered : account.isRegistered)
      (hgoesOn : account.handed.any Signal.endsWith = false)
      (hall : account.handed = Frame.addressed id account.frames) :
    Standing account ⟨0, 1, .empty⟩ (some (account.entry id)) false
  /-- The reader holds the handler and a payload for it. -/
  | taken {closed} (id : UInt32) (payload : List UInt8) (hregistered : account.isRegistered)
      (hgoesOn : account.handed.any Signal.endsWith = false)
      (hall : account.handed ++ [payload] = Frame.addressed id account.frames) :
    Standing account ⟨0, 0, .payload payload⟩ (some (account.entry id)) closed
  /-- The reader holds the handler and a row of the payload that it was given last. -/
  | storing {closed} (id : UInt32) (hregistered : account.isRegistered)
      (hgoesOn : account.handed.any Signal.endsWith = false)
      (hall : account.handed = Frame.addressed id account.frames) :
    Standing account ⟨0, 0, .row⟩ (some (account.entry id)) closed
  /-- The statement has ended. -/
  | ended {closed} (id : UInt32) (hregistered : account.isRegistered)
      (hends : account.handed.any Signal.endsWith)
      (hall : account.handed = Signal.upToEnd (Frame.addressed id account.frames)) :
    Standing account ⟨0, 0, .empty⟩ (some (account.entry id)) closed
  /-- The link was closed, possibly with a payload in the hands of the reader. -/
  | lost {entry} (rest : List (List UInt8)) (hregistered : account.isRegistered)
      (hrest : rest.length ≤ 1)
      (hall : account.handed ++ rest = Signal.upToEnd (Frame.addressed entry.1 account.frames)) :
    Standing account ⟨0, 0, .empty⟩ (some entry) true

namespace Standing

variable {account : Account} {n q : Nat} {hand : Hand} {closed : Bool}
  {entry : Option StatementEntry}

/-- A handler that a call carries belongs to a statement. -/
theorem exists_entry_of_carried (h : Standing account ⟨n + 1, q, hand⟩ entry closed) :
    ∃ e, entry = some e := by
  cases h with
  | carried id haccount => exact ⟨_, rfl⟩

/-- A handler that is let go of by the call that carries it is never registered. -/
theorem refuse (h : Standing account ⟨n + 1, q, hand⟩ entry closed)
    (after : StatementEntry) :
    Standing account ⟨n, q, hand⟩ (some after) closed := by
  cases h with
  | carried id haccount => exact .refused haccount

/-- A handler that is registered waits for frames. -/
theorem register {key : Nat} (h : Standing account ⟨n + 1, q, hand⟩ entry false) :
    Standing (account.note key (.registered key)) ⟨n, q + 1, hand⟩ entry false := by
  cases h with
  | carried id haccount =>
    subst haccount
    rw [Account.note, if_pos rfl]
    exact .waiting id rfl rfl rfl

/-- A new statement has no handler yet, or one that a call carries. -/
theorem opened (h : Standing account ⟨n, q, hand⟩ none closed) (id : UInt32) :
    Standing account ⟨n + 1, q, hand⟩ (some (id, Signal.answerOf [])) closed ∧
      ∀ after, Standing account ⟨n, q, hand⟩ (some after) closed := by
  cases h with
  | absent haccount =>
    subst haccount
    exact ⟨.carried id rfl, fun _ => .refused rfl⟩

/-! ### Closing -/

/-- No handler waits on a closed link. -/
theorem waiting_eq_zero (h : Standing account ⟨n, q, hand⟩ entry true) : q = 0 := by
  cases h <;> rfl

/-- Closing the link takes handlers from those that wait, and only their statements are failed. -/
theorem shut (h : Standing account ⟨n, q, hand⟩ entry closed)
    {after : Option StatementEntry}
    (hid : after.map (·.1) = entry.map (·.1)) (hsame : q = 0 → after = entry) :
    Standing account ⟨n, 0, hand⟩ after true := by
  cases h with
  | absent haccount => rw [hsame rfl]; exact .absent haccount
  | carried id haccount => rw [hsame rfl]; exact .carried id haccount
  | refused haccount => rw [hsame rfl]; exact .refused haccount
  | taken id payload hregistered hgoesOn hall =>
    rw [hsame rfl]; exact .taken id payload hregistered hgoesOn hall
  | storing id hregistered hgoesOn hall =>
    rw [hsame rfl]; exact .storing id hregistered hgoesOn hall
  | ended id hregistered hends hall => rw [hsame rfl]; exact .ended id hregistered hends hall
  | lost rest hregistered hrest hall => rw [hsame rfl]; exact .lost rest hregistered hrest hall
  | waiting id hregistered hgoesOn hall =>
    obtain ⟨after, rfl, hfirst⟩ := Option.map_eq_some_iff.mp hid
    refine .lost [] hregistered (Nat.zero_le _) ?_
    rw [List.append_nil, hfirst, Account.entry, ← hall, Signal.upToEnd_of_not_any hgoesOn]

/-! ### The reader's part -/

/-- A frame that is not for a handler that waits changes nothing for it. -/
theorem read_other (h : Standing account ⟨n, q, .empty⟩ entry false) (key : Nat) {frame : Frame}
    (hother : q ≠ 0 → ∀ e, entry = some e → frame.isFor e.1 = false) :
    Standing (account.note key (.read frame)) ⟨n, q, .empty⟩ entry false := by
  cases h with
  | absent haccount => subst haccount; exact .absent rfl
  | carried id haccount => subst haccount; exact .carried id rfl
  | refused haccount => subst haccount; exact .refused rfl
  | waiting id hregistered hgoesOn hall =>
    have hnot : frame.isFor id = false := hother (Nat.succ_ne_zero 0) (account.entry id) rfl
    rw [Account.note, if_pos hregistered]
    refine .waiting id hregistered hgoesOn ?_
    rw [Frame.addressed_append, Frame.addressed_singleton, if_neg (by simp [hnot]),
      List.append_nil]
    exact hall
  | ended id hregistered hends hall =>
    rw [Account.note, if_pos hregistered]
    refine .ended id hregistered hends ?_
    have hany : (Frame.addressed id account.frames).any Signal.endsWith := by
      by_contra hnone
      rw [Signal.upToEnd_of_not_any (by simpa using hnone)] at hall
      rw [← hall] at hnone
      exact hnone hends
    rw [Frame.addressed_append, Signal.upToEnd_append_of_any hany]
    exact hall

/-- A frame that is for a handler that waits is taken for it. -/
theorem read_own {e : StatementEntry}
    (h : Standing account ⟨n, q + 1, .empty⟩ (some e) false) (key : Nat) {frame : Frame}
    (hown : frame.isFor e.1) :
    Standing (account.note key (.read frame)) ⟨n, q, .payload frame.payload⟩ (some e) false := by
  cases h with
  | waiting id hregistered hgoesOn hall =>
    have hfor : frame.isFor id := hown
    rw [Account.note, if_pos hregistered]
    refine .taken id frame.payload hregistered hgoesOn ?_
    rw [Frame.addressed_append, Frame.addressed_singleton, if_pos hfor]
    exact congrArg (· ++ [frame.payload]) hall

variable {payload : List UInt8}

/-- The statement of a handler that the reader holds is as its payloads left it, and goes on. -/
theorem exists_entry (h : Standing account ⟨n, q, hand⟩ entry closed) (hholds : hand ≠ .empty) :
    ∃ id, entry = some (account.entry id) ∧ account.handed.any Signal.endsWith = false := by
  cases h with
  | taken id payload hregistered hgoesOn hall => exact ⟨id, rfl, hgoesOn⟩
  | storing id hregistered hgoesOn hall => exact ⟨id, rfl, hgoesOn⟩
  | _ => exact absurd rfl hholds

/-- A payload with a row leaves the handler with the reader. -/
theorem hand_row {id : UInt32}
    (h : Standing account ⟨n, q, .payload payload⟩ (some (account.entry id)) closed) (key : Nat)
    (hgoesOn : Signal.endsWith payload = false) :
    Standing (account.note key (.handed key payload)) ⟨n, q, .row⟩
      (some ((account.note key (.handed key payload)).entry id)) closed := by
  generalize hentry : some (account.entry id) = entry at h
  cases h with
  | taken id' payload hregistered hbefore hall =>
    obtain rfl : id = id' := congrArg Prod.fst (Option.some.inj hentry)
    rw [Account.note, if_pos rfl]
    exact .storing id hregistered (by simp [hbefore, hgoesOn]) hall

/-- A payload that ends the statement is the last one. -/
theorem hand_end {id : UInt32}
    (h : Standing account ⟨n, q, .payload payload⟩ (some (account.entry id)) closed) (key : Nat)
    (hends : Signal.endsWith payload) :
    Standing (account.note key (.handed key payload)) ⟨n, q, .empty⟩
      (some ((account.note key (.handed key payload)).entry id)) closed := by
  generalize hentry : some (account.entry id) = entry at h
  cases h with
  | taken id' payload hregistered hbefore hall =>
    obtain rfl : id = id' := congrArg Prod.fst (Option.some.inj hentry)
    rw [Account.note, if_pos rfl]
    refine .ended id hregistered (by simp [hends]) ?_
    rw [← hall, Signal.upToEnd_append hbefore, Signal.upToEnd, if_pos hends]

/-- After a payload that is done with, the handler waits again. -/
theorem putBack (h : Standing account ⟨n, q, .row⟩ entry false) :
    Standing account ⟨n, q + 1, .empty⟩ entry false := by
  cases h with
  | storing id hregistered hgoesOn hall => exact .waiting id hregistered hgoesOn hall

/-- A handler that the reader lets go of after the link was closed lacks at most one payload. -/
theorem letGo (h : Standing account ⟨n, q, hand⟩ entry true)
    {after : StatementEntry}
    (hid : entry.map (·.1) = some after.1) (hholds : hand ≠ .empty) :
    Standing account ⟨n, q, .empty⟩ (some after) true := by
  cases h with
  | taken id payload hregistered hgoesOn hall =>
    have hid : id = after.1 := Option.some.inj hid
    refine .lost [payload] hregistered (Nat.le_refl 1) ?_
    rw [← hid, ← hall, Signal.upToEnd_append_singleton hgoesOn]
  | storing id hregistered hgoesOn hall =>
    have hid : id = after.1 := Option.some.inj hid
    refine .lost [] hregistered (Nat.zero_le 1) ?_
    rw [List.append_nil, ← hid, ← hall, Signal.upToEnd_of_not_any hgoesOn]
  | _ => exact absurd rfl hholds

/-! ### What a standing tells -/

variable {places : Places}
  {e : StatementEntry}

/-- A handler was given what is addressed to it, but for a payload that the reader holds or that was
lost when the link was closed. -/
theorem handed (h : Standing account places (some e) closed) :
    ∃ rest : List (List UInt8), rest.length ≤ 1 ∧
      account.handed ++ rest = Signal.upToEnd (Frame.addressed e.1 account.frames) ∧
      (closed = false → rest = places.hand.payloads) := by
  cases h with
  | carried id haccount =>
    subst haccount
    exact ⟨[], Nat.zero_le 1, rfl, fun _ => rfl⟩
  | refused haccount =>
    subst haccount
    exact ⟨[], Nat.zero_le 1, rfl, fun _ => rfl⟩
  | waiting id hregistered hgoesOn hall =>
    refine ⟨[], Nat.zero_le 1, ?_, fun _ => rfl⟩
    rw [List.append_nil, Account.entry, ← hall, Signal.upToEnd_of_not_any hgoesOn]
  | taken id payload hregistered hgoesOn hall =>
    refine ⟨[payload], Nat.le_refl 1, ?_, fun _ => rfl⟩
    rw [Account.entry, ← hall, Signal.upToEnd_append_singleton hgoesOn]
  | storing id hregistered hgoesOn hall =>
    refine ⟨[], Nat.zero_le 1, ?_, fun _ => rfl⟩
    rw [List.append_nil, Account.entry, ← hall, Signal.upToEnd_of_not_any hgoesOn]
  | ended id hregistered hends hall =>
    refine ⟨[], Nat.zero_le 1, ?_, fun _ => rfl⟩
    rw [List.append_nil, hall]
    rfl
  | lost rest hregistered hrest hall => exact ⟨rest, hrest, hall, by simp⟩

/-- On an open link, a handler is in one place as long as its statement goes on. -/
theorem placed (h : Standing account places entry false) :
    places.waiting + places.hand.holds.toNat =
      (account.isRegistered && !account.handed.any Signal.endsWith).toNat := by
  cases h with
  | absent haccount => subst haccount; rfl
  | carried id haccount => subst haccount; rfl
  | refused haccount => subst haccount; rfl
  | waiting id hregistered hgoesOn hall => rw [hregistered, hgoesOn]; rfl
  | taken id payload hregistered hgoesOn hall => rw [hregistered, hgoesOn]; rfl
  | storing id hregistered hgoesOn hall => rw [hregistered, hgoesOn]; rfl
  | ended id hregistered hends hall => rw [hregistered, hends]; rfl

/-- On an open link, a statement is as the payloads that its handler was given leave it. -/
theorem entry_eq (h : Standing account places (some e) false) (hregistered : account.isRegistered) :
    e = account.entry e.1 := by
  cases h with
  | refused haccount =>
    subst haccount
    cases hregistered
  | _ => rfl

end Standing

end BeeProtocol
