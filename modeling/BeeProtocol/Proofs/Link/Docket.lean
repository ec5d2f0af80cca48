import BeeProtocol.Proofs.Link.Draining
import BeeProtocol.Proofs.Link.Ownership
import BeeProtocol.Proofs.Link.Queueing
import BeeProtocol.Proofs.Link.Standing

/-!
# The docket of a link

Who is given which frame is a matter of the order in which handlers join the queue, leave it and
frames are read, and of nothing else. A docket deals with one of these after another: it has neither
bytes nor calls nor buffers, and nothing ever waits. The statements and the replies of a link are as
its docket tells, up to the payload or the row that the reader holds.
-/

namespace BeeProtocol

/-- A handler that waits, with the frames that it takes. -/
structure Waiter where
  /-- The handler that waits. -/
  handler : Handler
  /-- The frames that it takes. -/
  scope : Option Scope
  deriving DecidableEq

/-- Whether a waiter takes a frame. -/
def Waiter.takes (frame : Frame) (waiter : Waiter) : Bool := waiter.scope.any (Scope.takes frame)

/-- Whether a handler goes back into the queue after a payload: that of a statement which goes on
does. -/
def Handler.returnsAfter (payload : List UInt8) : Handler → Bool
  | statement _ => !Signal.endsWith payload
  | reply _ => false

/-- A payload decides a single reply that goes on. -/
theorem ReplyHandler.outcome_answer {h : ReplyHandler} (hnone : h.promise.outcome = none)
    (payload : List UInt8) :
    ((h.decode payload).complete).drop.promise.outcome = some (h.kind.outcomeOf payload) := by
  rw [drop, abandon, outcome_settle, complete]
  dsimp only [decode]
  rw [outcome_settle]
  simp only [hnone, Option.getD_none, Option.getD_some]
  rfl

/-- Settling a reply once more with the same outcome changes nothing. -/
theorem ReplyHandler.settle_settle (h : ReplyHandler) (outcome : Outcome Message) :
    (h.settle outcome).settle outcome = h.settle outcome := by
  unfold settle Promise.complete
  cases houtcome : h.promise.outcome <;> simp [houtcome]

/-- Who waits, and who was given which payload. -/
structure Docket where
  /-- Who waits, in the order of the queue. -/
  waiting : List Waiter
  /-- Which payload was given to whom. -/
  given : List (Waiter × List UInt8)

namespace Docket

/-- What a docket deals with. -/
inductive Item
  /-- A handler joins the queue. -/
  | joined (waiter : Waiter)
  /-- The handler of a single reply leaves the queue, as the call gives it up. -/
  | left (key : Nat)
  /-- A frame is read. -/
  | read (frame : Frame)
  deriving DecidableEq

/-- The frame that is read. -/
def Item.frame? : Item → Option Frame
  | read frame => some frame
  | _ => none

/-- Nobody waits, and nothing was read. -/
def empty : Docket := ⟨[], []⟩

/-- A frame goes to the first waiter who takes it. -/
def read (d : Docket) (frame : Frame) : Docket :=
  match d.waiting.find? (Waiter.takes frame) with
  | none => d
  | some waiter =>
    { waiting :=
        (if waiter.handler.returnsAfter frame.payload then [waiter] else []) ++
          d.waiting.eraseP (Waiter.takes frame)
      given := d.given ++ [(waiter, frame.payload)] }

/-- The docket after one more item. -/
def note (d : Docket) : Item → Docket
  | .joined waiter => { d with waiting := d.waiting ++ [waiter] }
  | .left key => { d with waiting := d.waiting.filter (·.handler != .reply key) }
  | .read frame => d.read frame

/-- The docket after items one after another. -/
def ofItems (items : List Item) : Docket := items.foldl note empty

/-- The payloads that a handler was given. -/
def payloads (d : Docket) (handler : Handler) : List (List UInt8) :=
  (d.given.filter fun entry => entry.1.handler == handler).map (·.2)

/-- The handlers that wait. -/
def handlers (d : Docket) : List Handler := d.waiting.map (·.handler)

variable (d : Docket)

/-- Who joins comes behind the others. -/
theorem foldl_joined (waiters : List Waiter) :
    (waiters.map Item.joined).foldl note d = { d with waiting := d.waiting ++ waiters } := by
  induction waiters generalizing d with
  | nil => simp
  | cons waiter waiters ih =>
    rw [List.map_cons, List.foldl_cons, ih]
    simp [note]

/-- The others stay when single replies are given up. -/
theorem foldl_left (keys : List Nat) :
    (keys.map Item.left).foldl note d =
      { d with
        waiting := d.waiting.filter fun waiter => waiter.handler.stays fun key => key ∉ keys } := by
  induction keys generalizing d with
  | nil =>
    have hall : (d.waiting.filter fun waiter => waiter.handler.stays fun key => key ∉ []) =
        d.waiting := by
      refine List.filter_eq_self.mpr fun waiter _ => ?_
      cases waiter.handler <;> rfl
    rw [hall]
    rfl
  | cons key keys ih =>
    rw [List.map_cons, List.foldl_cons, ih]
    simp only [note, List.filter_filter]
    congr 1
    refine List.filter_congr fun waiter _ => ?_
    cases waiter.handler <;>
      simp [Handler.stays, bne, Bool.beq_eq_decide_eq, Bool.and_comm]

variable {d}

/-- A frame that nobody takes is given to nobody. -/
theorem read_of_none {frame : Frame} (h : d.waiting.find? (Waiter.takes frame) = none) :
    d.read frame = d := by
  unfold read
  rw [h]

/-- A frame is given to the waiter who takes it first. -/
theorem read_of_some {frame : Frame} {waiter : Waiter}
    (h : d.waiting.find? (Waiter.takes frame) = some waiter) :
    d.read frame =
      { waiting :=
          (if waiter.handler.returnsAfter frame.payload then [waiter] else []) ++
            d.waiting.eraseP (Waiter.takes frame)
        given := d.given ++ [(waiter, frame.payload)] } := by
  unfold read
  rw [h]

/-- A frame that is read brings nobody new. -/
theorem mem_of_read {frame : Frame} {waiter : Waiter}
    (h : waiter ∈ (d.read frame).waiting ∨ waiter ∈ (d.read frame).given.map (·.1)) :
    waiter ∈ d.waiting ∨ waiter ∈ d.given.map (·.1) := by
  cases hfind : d.waiting.find? (Waiter.takes frame) with
  | none => rwa [read_of_none hfind] at h
  | some taker =>
    have htaker := List.mem_of_find?_eq_some hfind
    rw [read_of_some hfind] at h
    dsimp only at h
    rw [List.map_append, List.mem_append, List.mem_append] at h
    rcases h with (hreturns | hrest) | (hgiven | htakes)
    · split at hreturns
      · rw [List.mem_singleton.mp hreturns]
        exact .inl htaker
      · cases hreturns
    · exact .inl (List.eraseP_sublist.subset hrest)
    · exact .inr hgiven
    · rw [List.mem_singleton.mp htakes]
      exact .inl htaker

end Docket

/-! ### Rosters and dockets -/

/-- The handler that the reader will put back into the queue. -/
def ReaderStage.returning : ReaderStage → List Handler
  | decoding handler payload => if handler.returnsAfter payload then [handler] else []
  | storing key _ => [.statement key]
  | _ => []

/-- A statement that a payload ends will not be put back. -/
theorem ReaderStage.returning_statement (key : Nat) (payload : List UInt8) :
    (decoding (.statement key) payload).returning =
      if Signal.endsWith payload then [] else [.statement key] := by
  change (if (!Signal.endsWith payload) = true then [Handler.statement key] else []) = _
  cases Signal.endsWith payload <;> rfl

/-- The row of a statement that the reader is about to store. -/
def ReaderStage.rowOf (key : Nat) : ReaderStage → List Row
  | storing other row => if other = key then [row] else []
  | _ => []

namespace Roster

/-- A handler with the frames that it takes on a link. -/
def waiter (r : Roster) (handler : Handler) : Waiter := ⟨handler, r.scope? handler⟩

/-- There is such a handler, and it takes these frames. -/
def KnowsWaiter (r : Roster) (waiter : Waiter) : Prop :=
  r.Knows waiter.handler ∧ waiter = r.waiter waiter.handler

/-- What the statements that still wait are told in the end. -/
def parting (r : Roster) : List Signal :=
  if r.isClosed then [.abandoned .connectionClosed] else []

/-- A statement is as the payloads that it has heard leave it. -/
structure Reports (r : Roster) (log : List Event) (key : Nat) (heard : List (List UInt8))
    (c : Channel) : Prop where
  /-- A statement that goes on has its state from its payloads. -/
  live : c.isDone = false → c.Reflects (heard.map .ofPayload)
  /-- So has one that was registered, and it was told in the end that the link is closed. -/
  registered : .statement key ∈ Event.registeredIn log →
    c.Reflects (heard.map .ofPayload ++ r.parting)
  /-- No row is lost as long as the response is kept. -/
  rows : c.isDropped = false →
    Event.gainedFrom key log ++ c.rows ++ r.reading.rowOf key =
      Signal.accepted (heard.map .ofPayload)

end Roster

namespace Docket

/-- A docket tells how a link stands, given what is remembered of the run. -/
structure Tells (d : Docket) (r : Roster) (log : List Event) : Prop where
  /-- On an open link those wait who are in the queue or will be put back. -/
  waiting : r.isClosed = false → d.waiting = (r.reading.returning ++ r.pending).map r.waiter
  /-- Only handlers that there are wait or were given a payload. -/
  known : ∀ waiter, waiter ∈ d.waiting ∨ waiter ∈ d.given.map (·.1) → r.KnowsWaiter waiter
  /-- Every statement has heard the payloads that it was given, but for the one in the hands of the
  reader. -/
  statements : ∀ key c, r.channels[key]? = some c → ∃ heard,
    d.payloads (.statement key) = heard ++ (r.reading.hand key).payloads ∧
      r.Reports log key heard c
  /-- Nothing was taken from a response that there is not. -/
  unopened : ∀ key, r.channels[key]? = none → Event.gainedFrom key log = []
  /-- A reply that was given a payload is decided by it, unless the reader still has it in its
  hands. -/
  given : ∀ key h, r.replies[key]? = some h → ∀ payload ∈ d.payloads (.reply key),
    r.reading = .decoding (.reply key) payload ∨
      h.promise.outcome = some (h.kind.outcomeOf payload)
  /-- On a closed link those who still wait have failed. -/
  lost : r.isClosed → ∀ key h, r.replies[key]? = some h → .reply key ∈ d.handlers →
    h.promise.outcome = some (.error .connectionClosed)

end Docket

namespace Roster

variable {r r' : Roster} {log events : List Event} {key : Nat} {handler : Handler} {c : Channel}
  {heard : List (List UInt8)}

/-! ### What handlers take -/

/-- What a handler stands for stays, and so do the frames that it takes. -/
theorem Moves.knows_and_scope (hmoves : r.Moves events r') (hknows : r.Knows handler) :
    r'.Knows handler ∧ r'.scope? handler = r.scope? handler := by
  refine hmoves.invariant
    (P := fun last _ => last.Knows handler ∧ last.scope? handler = r.scope? handler) [] ?_
    ⟨hknows, rfl⟩
  rintro r r' event log - hmove ⟨hknows, hscope⟩
  exact ⟨hmove.knows hknows, (hmove.scope hknows).trans hscope⟩

/-- What a handler takes never changes. -/
theorem Moves.waiter (hmoves : r.Moves events r') (hknows : r.Knows handler) :
    r'.waiter handler = r.waiter handler := by
  rw [Roster.waiter, (hmoves.knows_and_scope hknows).2, Roster.waiter]

/-- A waiter that is known stays so. -/
theorem Moves.knowsWaiter (hmoves : r.Moves events r') {waiter : Waiter}
    (h : r.KnowsWaiter waiter) : r'.KnowsWaiter waiter :=
  ⟨(hmoves.knows_and_scope h.1).1, h.2.trans (hmoves.waiter h.1).symm⟩

/-- The reader puts back the handler that it holds and no other. -/
theorem held_of_returning {stage : ReaderStage} (h : handler ∈ stage.returning) :
    stage.held? = some handler := by
  cases stage with
  | decoding other payload =>
    dsimp only [ReaderStage.returning] at h
    split at h
    · rw [List.mem_singleton.mp h]
      rfl
    · cases h
  | storing other row =>
    rw [List.mem_singleton.mp h]
    rfl
  | _ => cases h

/-- The reader looks for the payload or the row of a statement only if it holds its handler. -/
theorem hands_of_held_ne {stage : ReaderStage} (h : stage.held? ≠ some (.statement key)) :
    (stage.hand key).payloads = [] ∧ stage.rowOf key = [] := by
  cases stage with
  | decoding handler payload =>
    rw [ReaderStage.hand_decoding (by simpa [ReaderStage.held?] using h)]
    exact ⟨rfl, rfl⟩
  | storing other row =>
    have hother : other ≠ key := by simpa [ReaderStage.held?] using h
    simp [ReaderStage.hand, ReaderStage.rowOf, hother, Hand.payloads]
  | _ => exact ⟨rfl, rfl⟩

/-- All who stand in the queue or will be put back are known. -/
theorem Tended.knows_of_line (h : r.Tended log)
    (hmem : handler ∈ r.reading.returning ++ r.pending) : r.Knows handler := by
  rcases List.mem_append.mp hmem with hmem | hmem
  · exact knows_of_goesOn (h.goesOn_of_held (held_of_returning hmem))
  · exact knows_of_goesOn (h.goesOn_of_pending hmem)

/-- The waiter that takes a frame stands for the handler that takes it. -/
theorem find_waiter (r : Roster) (handlers : List Handler) (frame : Frame) :
    (handlers.map r.waiter).find? (Waiter.takes frame) =
      (handlers.find? (r.accepts frame)).map r.waiter := by
  have htakes : Waiter.takes frame ∘ r.waiter = r.accepts frame :=
    funext fun handler => (r.accepts_eq frame handler).symm
  rw [List.find?_map, htakes]

/-- The waiter that takes a frame leaves as its handler does. -/
theorem eraseP_waiter (r : Roster) {handlers : List Handler} {frame : Frame}
    (hfind : handlers.find? (r.accepts frame) = some handler) :
    (handlers.map r.waiter).eraseP (Waiter.takes frame) =
      (handlers.erase handler).map r.waiter := by
  have htakes : Waiter.takes frame ∘ r.waiter = r.accepts frame :=
    funext fun handler => (r.accepts_eq frame handler).symm
  obtain ⟨front, back, hsplit, herase, hfront⟩ := Lists.find?_split hfind
  rw [List.eraseP_map, htakes, herase, hsplit,
    List.eraseP_append_right _ fun other hmem => by simp [hfront other hmem],
    List.eraseP_cons_of_pos (List.find?_some hfind)]

/-! ### Reports -/

/-- What a statement reports depends on the link only by whether it is closed and by the row that is
to be stored. -/
theorem Reports.congr (h : r.Reports log key heard c) (hclosed : r'.isClosed = r.isClosed)
    (hrow : r'.reading.rowOf key = r.reading.rowOf key) : r'.Reports log key heard c := by
  refine ⟨h.live, ?_, ?_⟩
  · rw [parting, hclosed]
    exact h.registered
  · rw [hrow]
    exact h.rows

/-- On an open link a statement reports no more than its payloads. -/
theorem parting_of_open (hopen : r.isClosed = false) : r.parting = [] := by
  rw [parting, if_neg (by simp [hopen])]

/-- A statement that hears one more payload reports what it has heard, this payload included. -/
theorem Reports.hear (h : r.Reports log key heard c) (hlive : c.isDone = false)
    (hopen : r'.isClosed = false) (payload : List UInt8)
    (hbefore : r.reading.rowOf key = [])
    (hrow : r'.reading.rowOf key = (c.receive payload).2.toList) :
    r'.Reports log key (heard ++ [payload]) (c.receive payload).1 := by
  obtain ⟨hreflects, hnext⟩ := (h.live hlive).hear (.ofPayload payload)
  rw [← Channel.receive_eq] at hreflects hnext
  have hlist : (heard ++ [payload]).map Signal.ofPayload =
      heard.map .ofPayload ++ [.ofPayload payload] := List.map_append
  refine ⟨fun _ => ?_, fun _ => ?_, fun hkept => ?_⟩
  · rwa [hlist]
  · rwa [parting_of_open hopen, List.append_nil, hlist]
  · have hdropped : (c.receive payload).1.isDropped = c.isDropped := by
      rw [Channel.receive_eq, Channel.hear_isDropped]
    have hrows : (c.receive payload).1.rows = c.rows := by
      rw [Channel.receive_eq, Channel.hear_rows]
    have hall := h.rows (hdropped ▸ hkept)
    rw [hbefore, List.append_nil] at hall
    rw [hlist, Signal.accepted_append_singleton, ← hnext, hrow, hrows, hall]

/-- A statement that goes on is over after a payload if the payload ends it. -/
theorem Reports.isDone_receive (h : r.Reports log key heard c) (hlive : c.isDone = false)
    (payload : List UInt8) : (c.receive payload).1.isDone = Signal.endsWith payload := by
  have hbefore := h.live hlive
  have hover := hbefore.isDone_eq
  rw [hlive] at hover
  have hreflects := (hbefore.hear (.ofPayload payload)).1
  rw [← Channel.receive_eq] at hreflects
  rw [hreflects.isDone_eq, Signal.isOver_append, ← hover, Bool.false_or]
  simp [Signal.isOver, Signal.endsWith]

/-- A row that is stored, or that still waits for a slot. -/
theorem Reports.store (h : r.Reports log key heard c) {row : Row}
    (hclosed : r'.isClosed = r.isClosed) (hbefore : r.reading.rowOf key = [row])
    (hrow : r'.reading.rowOf key = if (c.store row).2 then [] else [row]) :
    r'.Reports log key heard (c.store row).1 := by
  have hanswer := c.store_answer row
  refine ⟨fun hlive => ?_, fun hregistered => ?_, fun hkept => ?_⟩
  · rw [Channel.isDone_of_answer hanswer] at hlive
    exact hanswer.trans (h.live hlive)
  · rw [parting, hclosed]
    exact hanswer.trans (h.registered hregistered)
  · rw [Channel.store_isDropped] at hkept
    have hall := h.rows hkept
    rw [hbefore] at hall
    rw [Channel.store_rows hkept, hrow, ← hall]
    cases (c.store row).2 <;> simp

/-! ### Closing -/

/-- Closing leaves a statement as it is or fails it. -/
theorem shut_channel (hc : r.channels[key]? = some c) :
    ∃ c', r.shut.channels[key]? = some c' ∧
      (c' = c ∨ c' = c.finish (some .connectionClosed)) := by
  refine shut_invariant (P := fun r => ∃ c', r.channels[key]? = some c' ∧
    (c' = c ∨ c' = c.finish (some .connectionClosed))) ⟨c, hc, .inl rfl⟩ ⟨c, hc, .inl rfl⟩ ?_
  rintro r handler ⟨c', hc', hends⟩
  cases handler with
  | reply other => exact ⟨c', hc', hends⟩
  | statement other =>
    refine ⟨if other = key then c'.finish (some .connectionClosed) else c', ?_, ?_⟩
    · rw [letGo, Roster.change, List.getElem?_modify, hc']
      by_cases hkey : other = key <;> simp [hkey]
    · split
      · right
        rcases hends with rfl | rfl
        · rfl
        · exact Channel.finish_of_isDone (c.finish_isDone _) _
      · exact hends

/-- Closing leaves a single reply as it is or fails it. -/
theorem shut_reply {h : ReplyHandler} (hreply : r.replies[key]? = some h) :
    ∃ h', r.shut.replies[key]? = some h' ∧ (h' = h ∨ h' = h.abandon .connectionClosed) := by
  refine shut_invariant (P := fun r => ∃ h', r.replies[key]? = some h' ∧
    (h' = h ∨ h' = h.abandon .connectionClosed)) ⟨h, hreply, .inl rfl⟩ ⟨h, hreply, .inl rfl⟩ ?_
  rintro r handler ⟨h', hreply', hends⟩
  cases handler with
  | statement other => exact ⟨h', hreply', hends⟩
  | reply other =>
    refine ⟨if other = key then h'.abandon .connectionClosed else h', ?_, ?_⟩
    · rw [letGo, Roster.changeReply, List.getElem?_modify, hreply']
      by_cases hkey : other = key <;> simp [hkey]
    · split
      · right
        rcases hends with rfl | rfl
        · rfl
        · exact ReplyHandler.settle_settle h _
      · exact hends

/-- Closing ends all that waits, and nothing else. -/
theorem goesOn_shut (hopen : r.isClosed = false) (handler : Handler) :
    r.shut.goesOn handler = (r.goesOn handler && !r.pending.contains handler) := by
  unfold shut
  rw [if_neg (by simp [hopen]), goesOn_foldl_letGo]
  rw [show ({ r with isClosed := true, pending := [] } : Roster).goesOn handler =
    r.goesOn handler from goesOn_congr rfl rfl handler]

/-- A statement whose handler was registered and which goes on waits, unless the reader holds it. -/
theorem Tended.mem_pending (h : r.Tended log) (hregistered : handler ∈ Event.registeredIn log)
    (hkey : handler = .statement key) (hgoesOn : r.goesOn handler) :
    handler ∈ r.pending ∨ r.reading.held? = some handler := by
  have hplaces := (h.tenure handler).kept key hkey hgoesOn
  obtain ⟨hcarried, -⟩ := h.lays handler hregistered
  unfold places at hplaces
  by_cases hheld : r.reading.held? = some handler
  · exact .inr hheld
  · have hnone : r.held handler = 0 := by
      rw [held, beq_false_of_ne hheld]
      rfl
    exact .inl (List.count_pos_iff.mp (by omega))

/-- Closing adds no reply. -/
theorem shut_replies_length (r : Roster) : r.shut.replies.length = r.replies.length := by
  refine shut_invariant (P := fun r' => r'.replies.length = r.replies.length) rfl rfl ?_
  rintro r' (key | key) h
  · exact h
  · exact (List.length_modify ..).trans h

/-- A statement that waits when the link is closed is failed. -/
theorem Tended.shut_statement (h : r.Tended log) (hopen : r.isClosed = false)
    (hwaits : .statement key ∈ r.pending) (hc : r.channels[key]? = some c) :
    c.isDone = false ∧ r.shut.channels[key]? = some (c.finish (some .connectionClosed)) := by
  obtain ⟨same, hsame, hlive⟩ := goesOn_statement_iff.mp (h.goesOn_of_pending hwaits)
  obtain rfl := Option.some.inj (hsame.symm.trans hc)
  obtain ⟨after, hafter, rfl | rfl⟩ := shut_channel hc
  · have hended := goesOn_shut hopen (.statement key)
    rw [List.contains_iff_mem.mpr hwaits, Bool.not_true, Bool.and_false,
      goesOn_statement_iff.mpr ⟨_, hafter, hlive⟩] at hended
    cases hended
  · exact ⟨hlive, hafter⟩

/-- A single reply that waits when the link is closed is failed. -/
theorem Tended.shut_reply_of_mem {reply : ReplyHandler} (h : r.Tended log)
    (hopen : r.isClosed = false) (hwaits : .reply key ∈ r.pending)
    (hreply : r.replies[key]? = some reply) :
    ∃ reply', r.shut.replies[key]? = some reply' ∧
      reply'.promise.outcome = some (.error .connectionClosed) := by
  obtain ⟨same, hsame, hnone⟩ := goesOn_reply_iff.mp (h.goesOn_of_pending hwaits)
  obtain rfl := Option.some.inj (hsame.symm.trans hreply)
  obtain ⟨after, hafter, rfl | rfl⟩ := Roster.shut_reply hreply
  · have hended := goesOn_shut hopen (.reply key)
    rw [List.contains_iff_mem.mpr hwaits, Bool.not_true, Bool.and_false,
      goesOn_reply_iff.mpr ⟨_, hafter, hnone⟩] at hended
    cases hended
  · refine ⟨_, hafter, ?_⟩
    rw [ReplyHandler.abandon, ReplyHandler.outcome_settle, hnone]
    rfl

/-- A statement that still waits when the link is closed is abandoned, and the others are left as
they are. -/
theorem Reports.shut (h : r.Reports log key heard c) (htended : r.Tended log)
    (hopen : r.isClosed = false) (hreading : r.reading = .reading)
    (hc : r.channels[key]? = some c) {c' : Channel} (hc' : r.shut.channels[key]? = some c') :
    ({ r.shut with reading := .stopped } : Roster).Reports log key heard c' := by
  obtain ⟨after, hafter, hends⟩ := shut_channel hc
  obtain rfl : after = c' := Option.some.inj (hafter.symm.trans hc')
  refine ⟨fun hlive => ?_, fun hregistered => ?_, fun hkept => ?_⟩
  · rcases hends with rfl | rfl
    · exact h.live hlive
    · rw [Channel.finish_isDone] at hlive
      cases hlive
  · have hparting : ({ r.shut with reading := .stopped } : Roster).parting =
        [.abandoned .connectionClosed] := by
      rw [parting, if_pos r.shut_isClosed]
    rw [hparting]
    cases hdone : c.isDone with
    | true =>
      rw [Channel.finish_of_isDone hdone, or_self] at hends
      subst hends
      have hreflects := h.registered hregistered
      rw [parting_of_open hopen, List.append_nil] at hreflects
      have hover : Signal.isOver (heard.map .ofPayload) := hreflects.isDone_eq.symm.trans hdone
      exact hreflects.trans (Signal.answerOf_append_of_isOver hover _).symm
    | false =>
      have hgoesOn : r.goesOn (.statement key) := goesOn_statement_iff.mpr ⟨c, hc, hdone⟩
      have hwaits : .statement key ∈ r.pending := by
        refine (htended.mem_pending hregistered rfl hgoesOn).resolve_right ?_
        rw [hreading]
        simp [ReaderStage.held?]
      obtain ⟨-, hfailed⟩ := htended.shut_statement hopen hwaits hc
      rw [Option.some.inj (hc'.symm.trans hfailed)]
      exact (h.live hdone).finish (.abandoned .connectionClosed) rfl
  · have hsame : after.rows = c.rows ∧ after.isDropped = c.isDropped := by
      rcases hends with rfl | rfl
      · exact ⟨rfl, rfl⟩
      · exact ⟨c.finish_rows _, c.finish_isDropped _⟩
    have hall := h.rows (hsame.2 ▸ hkept)
    rw [hreading] at hall
    rw [hsame.1]
    exact hall

end Roster

namespace Docket

variable {d : Docket} {r : Roster} {log : List Event} {key : Nat} {handler : Handler}

/-- Whoever was given a payload or waits is known. -/
theorem Tells.knows_of_payload (h : d.Tells r log) {payload : List UInt8}
    (hpayload : payload ∈ d.payloads handler) : r.Knows handler := by
  obtain ⟨entry, hentry, -⟩ := List.mem_map.mp hpayload
  obtain ⟨hmem, hhandler⟩ := List.mem_filter.mp hentry
  have hknown := (h.known entry.1 (.inr (List.mem_map_of_mem hmem))).1
  rwa [eq_of_beq hhandler] at hknown

/-- A handler that waits on the docket stands for something. -/
theorem Tells.knows_of_mem (h : d.Tells r log) (hmem : handler ∈ d.handlers) :
    r.Knows handler := by
  obtain ⟨waiter, hwaiter, rfl⟩ := List.mem_map.mp hmem
  exact (h.known waiter (.inl hwaiter)).1

/-! ### Steps of the reader -/

/-- A frame that is taken is one more payload of its handler. -/
theorem payloads_read {frame : Frame} {waiter : Waiter}
    (h : d.waiting.find? (Waiter.takes frame) = some waiter) (handler : Handler) :
    (d.read frame).payloads handler =
      d.payloads handler ++ if waiter.handler = handler then [frame.payload] else [] := by
  rw [read_of_some h]
  unfold payloads
  rw [List.filter_append, List.map_append]
  congr 1
  by_cases hhandler : waiter.handler = handler <;> simp [hhandler]

/-- The reader takes a handler off the queue for a frame. -/
theorem Tells.take (h : d.Tells r log) (hopen : r.isClosed = false) {frame : Frame}
    (hreading : r.reading = .reading)
    (hfind : r.pending.find? (r.accepts frame) = some handler) :
    (d.read frame).Tells
      { r with
        pending := r.pending.erase handler
        reading := .decoding handler frame.payload } log := by
  have hwaiting : d.waiting = r.pending.map r.waiter := by
    rw [h.waiting hopen, hreading]
    rfl
  have htaken : d.waiting.find? (Waiter.takes frame) = some (r.waiter handler) := by
    rw [hwaiting, r.find_waiter, hfind]
    rfl
  have hpayloads (other : Handler) : (d.read frame).payloads other =
      d.payloads other ++ if handler = other then [frame.payload] else [] :=
    payloads_read htaken other
  have hmem := List.mem_of_find?_eq_some hfind
  constructor
  · intro _
    have hreturns : (if handler.returnsAfter frame.payload then [r.waiter handler] else []) =
        (ReaderStage.decoding handler frame.payload).returning.map r.waiter := by
      dsimp only [ReaderStage.returning]
      split <;> rfl
    rw [read_of_some htaken, hwaiting, r.eraseP_waiter hfind]
    exact (congrArg (· ++ _) hreturns).trans List.map_append.symm
  · exact fun waiter hwaits => h.known waiter (mem_of_read hwaits)
  · intro key c hc
    obtain ⟨heard, hheard, hreports⟩ := h.statements key c hc
    rw [hreading, show (ReaderStage.reading.hand key).payloads = [] from rfl,
      List.append_nil] at hheard
    refine ⟨heard, ?_, hreports.congr rfl (by rw [hreading]; rfl)⟩
    rw [hpayloads, hheard]
    congr 1
    by_cases hhandler : handler = .statement key
    · rw [if_pos hhandler, hhandler]
      dsimp only [ReaderStage.hand]
      rw [if_pos rfl]
      rfl
    · rw [if_neg hhandler, ReaderStage.hand_decoding hhandler]
      rfl
  · exact h.unopened
  · intro key reply hreply payload hpayload
    rw [hpayloads, List.mem_append] at hpayload
    rcases hpayload with hbefore | hnew
    · right
      refine (h.given key reply hreply payload hbefore).resolve_left ?_
      rw [hreading]
      simp
    · split at hnew
      · rename_i hhandler
        left
        rw [List.mem_singleton.mp hnew, hhandler]
      · cases hnew
  · exact fun hclosed => absurd (hopen.symm.trans hclosed) Bool.false_ne_true

/-- A change of a statement, after which the reader has something else in its hands. -/
theorem Tells.change (h : d.Tells r log) (htended : r.Tended log) {change : Channel → Channel}
    {pending : List Handler} {stage : ReaderStage} (hopen : r.isClosed = false)
    (hline : stage.returning ++ pending = r.reading.returning ++ r.pending)
    (hheld : r.reading.held? = some (.statement key)) {events : List Event}
    (hmoves : r.Moves events
      { r.change key change with pending := pending, reading := stage })
    (hother : ∀ other, other ≠ key →
      (stage.hand other).payloads = [] ∧ stage.rowOf other = [])
    (hown : ∀ c heard, r.channels[key]? = some c →
      d.payloads (.statement key) = heard ++ (r.reading.hand key).payloads →
        r.Reports log key heard c → ∃ heard',
          d.payloads (.statement key) = heard' ++ (stage.hand key).payloads ∧
            ({ r.change key change with pending := pending, reading := stage } : Roster).Reports
              log key heard' (change c)) :
    d.Tells { r.change key change with pending := pending, reading := stage } log := by
  have hchannels (other : Nat) : (r.change key change).channels[other]? =
      (r.channels[other]?).map fun c => if key = other then change c else c := by
    rw [Roster.change, List.getElem?_modify]
    rfl
  constructor
  · intro _
    rw [h.waiting hopen, ← hline]
    refine List.map_congr_left fun handler hmem => ?_
    exact (hmoves.waiter (htended.knows_of_line (hline ▸ hmem))).symm
  · exact fun waiter hwaits => hmoves.knowsWaiter (h.known waiter hwaits)
  · intro other c hc
    obtain ⟨before, hbefore, rfl⟩ := Option.map_eq_some_iff.mp ((hchannels other).symm.trans hc)
    obtain ⟨heard, hheard, hreports⟩ := h.statements other before hbefore
    by_cases hkey : key = other
    · subst hkey
      rw [if_pos rfl]
      exact hown before heard hbefore hheard hreports
    · obtain ⟨hhand, hrow⟩ := hother other (Ne.symm hkey)
      have hnone : (r.reading.hand other).payloads = [] ∧ r.reading.rowOf other = [] :=
        Roster.hands_of_held_ne (by simpa [hheld] using hkey)
      rw [if_neg hkey]
      refine ⟨heard, ?_, hreports.congr rfl (hrow.trans hnone.2.symm)⟩
      rw [hheard, hnone.1]
      exact congrArg (heard ++ ·) hhand.symm
  · intro other hnone
    refine h.unopened other ?_
    exact Option.map_eq_none_iff.mp ((hchannels other).symm.trans hnone)
  · intro other reply hreply payload hpayload
    right
    refine (h.given other reply hreply payload hpayload).resolve_left fun hreading => ?_
    rw [hreading] at hheld
    cases hheld
  · exact fun hclosed => absurd (hopen.symm.trans hclosed) Bool.false_ne_true

/-- The payload that the reader holds is the reply. -/
theorem Tells.answer (h : d.Tells r log) (htended : r.Tended log) (hopen : r.isClosed = false)
    {payload : List UInt8} (hreading : r.reading = .decoding (.reply key) payload)
    {events : List Event}
    (hmoves : r.Moves events
      { r.changeReply key fun h => ((h.decode payload).complete).drop with reading := .reading }) :
    d.Tells
      { r.changeReply key fun h => ((h.decode payload).complete).drop with reading := .reading }
      log := by
  let answer : ReplyHandler → ReplyHandler := fun h => ((h.decode payload).complete).drop
  have hreplies (other : Nat) : (r.changeReply key answer).replies[other]? =
      (r.replies[other]?).map fun h => if key = other then answer h else h := by
    rw [Roster.changeReply, List.getElem?_modify]
    rfl
  have hkind (h : ReplyHandler) : (answer h).kind = h.kind := (h.comesTo_answer payload).kind
  constructor
  · intro _
    rw [h.waiting hopen, hreading]
    refine List.map_congr_left fun handler hmem => ?_
    exact (hmoves.waiter (Roster.knows_of_goesOn (htended.goesOn_of_pending hmem))).symm
  · exact fun waiter hwaits => hmoves.knowsWaiter (h.known waiter hwaits)
  · intro other c hc
    obtain ⟨heard, hheard, hreports⟩ := h.statements other c hc
    rw [hreading] at hheard
    exact ⟨heard, hheard, hreports.congr rfl (by rw [hreading]; rfl)⟩
  · exact h.unopened
  · intro other reply hreply given hgiven
    obtain ⟨before, hbefore, rfl⟩ :=
      Option.map_eq_some_iff.mp ((hreplies other).symm.trans hreply)
    right
    rcases h.given other before hbefore given hgiven with hheld | houtcome
    · rw [hreading] at hheld
      obtain ⟨hsame, rfl⟩ := ReaderStage.decoding.inj hheld
      obtain rfl := Handler.reply.inj hsame
      have hgoesOn : r.goesOn (.reply key) := htended.goesOn_of_held (by rw [hreading]; rfl)
      obtain ⟨live, hlive, hnone⟩ := Roster.goesOn_reply_iff.mp hgoesOn
      obtain rfl := Option.some.inj (hbefore.symm.trans hlive)
      rw [if_pos rfl, hkind, ReplyHandler.outcome_answer hnone]
    · by_cases hkey : key = other
      · rw [if_pos hkey, hkind]
        have hcomplete : before.promise.isComplete := by
          rw [Promise.isComplete, houtcome]
          rfl
        rw [(before.comesTo_answer payload).complete hcomplete, houtcome]
      · rw [if_neg hkey, houtcome]
  · exact fun hclosed => absurd (hopen.symm.trans hclosed) Bool.false_ne_true

/-- The reader closes the link, and all who wait are told. -/
theorem Tells.close (h : d.Tells r log) (htended : r.Tended log) (hopen : r.isClosed = false)
    (hreading : r.reading = .reading) {events : List Event}
    (hmoves : r.Moves events { r.shut with reading := .stopped }) :
    d.Tells { r.shut with reading := .stopped } log := by
  have hwaiting : d.waiting = r.pending.map r.waiter := by
    rw [h.waiting hopen, hreading]
    rfl
  constructor
  · intro hstays
    have hclosed : r.shut.isClosed = false := hstays
    rw [Roster.shut_isClosed] at hclosed
    cases hclosed
  · exact fun waiter hwaits => hmoves.knowsWaiter (h.known waiter hwaits)
  · intro key c' hc'
    have hkey : key < r.channels.length := by
      rw [← r.shut_channels_length]
      exact (List.getElem?_eq_some_iff.mp hc').1
    obtain ⟨c, hc⟩ : ∃ c, r.channels[key]? = some c := ⟨_, List.getElem?_eq_getElem hkey⟩
    obtain ⟨heard, hheard, hreports⟩ := h.statements key c hc
    rw [hreading] at hheard
    exact ⟨heard, hheard, hreports.shut htended hopen hreading hc hc'⟩
  · intro key hnone
    have hnone' : r.shut.channels[key]? = none := hnone
    refine h.unopened key ?_
    rw [List.getElem?_eq_none_iff] at hnone' ⊢
    rwa [← r.shut_channels_length]
  · intro key reply hreply payload hpayload
    right
    obtain ⟨before, hbefore⟩ : ∃ before, r.replies[key]? = some before := by
      refine ⟨_, List.getElem?_eq_getElem ?_⟩
      rw [← r.shut_replies_length]
      exact (List.getElem?_eq_some_iff.mp hreply).1
    have houtcome := (h.given key before hbefore payload hpayload).resolve_left (by simp [hreading])
    obtain ⟨after, hafter, hends⟩ := Roster.shut_reply hbefore
    obtain rfl : after = reply := Option.some.inj (hafter.symm.trans hreply)
    rcases hends with rfl | rfl
    · exact houtcome
    · rw [ReplyHandler.abandon, ReplyHandler.outcome_settle, houtcome]
      rfl
  · intro _ key reply hreply hmem
    rw [handlers, hwaiting, List.map_map] at hmem
    obtain ⟨handler, hwaits, hhandler⟩ := List.mem_map.mp hmem
    obtain rfl : handler = .reply key := hhandler
    have hknows := Roster.knows_of_goesOn (htended.goesOn_of_pending hwaits)
    obtain ⟨after, hafter, hfailed⟩ :=
      htended.shut_reply_of_mem hopen hwaits (List.getElem?_eq_getElem hknows)
    rwa [Option.some.inj (hreply.symm.trans hafter)]

/-- The statement whose handler the reader holds hears the payload that comes with it. -/
theorem Tells.hear (h : d.Tells r log) (htended : r.Tended log) (hopen : r.isClosed = false)
    {payload : List UInt8} {pending : List Handler} {stage : ReaderStage} {c : Channel}
    (hreading : r.reading = .decoding (.statement key) payload) (hc : r.channels[key]? = some c)
    (hlive : c.isDone = false) (hrows : stage.rowOf key = (c.receive payload).2.toList)
    (hother : ∀ other, other ≠ key → stage.rowOf other = [])
    (hempty : ∀ key, (stage.hand key).payloads = [])
    (hline : (c.receive payload).1.isDone = Signal.endsWith payload →
      stage.returning ++ pending = r.reading.returning ++ r.pending)
    {events : List Event}
    (hmoves : r.Moves events
      { r.change key fun c => (c.receive payload).1 with pending := pending, reading := stage }) :
    d.Tells
      { r.change key fun c => (c.receive payload).1 with pending := pending, reading := stage }
      log := by
  obtain ⟨heard, -, hreports⟩ := h.statements key c hc
  refine h.change htended hopen (hline (hreports.isDone_receive hlive payload))
    (by rw [hreading]; rfl) hmoves (fun other hne => ⟨hempty other, hother other hne⟩) ?_
  intro before heard hbefore hheard hreports
  obtain rfl := Option.some.inj (hc.symm.trans hbefore)
  refine ⟨heard ++ [payload], ?_, hreports.hear hlive ?_ payload (by rw [hreading]; rfl) ?_⟩
  · rw [hheard, hempty, hreading, List.append_nil, ReaderStage.hand, if_pos rfl]
    rfl
  · exact hopen
  · exact hrows

/-- The row that the reader holds is stored, or it still waits for a slot. -/
theorem Tells.store (h : d.Tells r log) (htended : r.Tended log) (hopen : r.isClosed = false)
    {row : Row} {pending : List Handler} {stage : ReaderStage} {c : Channel}
    (hreading : r.reading = .storing key row) (hc : r.channels[key]? = some c)
    (hrows : stage.rowOf key = if (c.store row).2 then [] else [row])
    (hother : ∀ other, other ≠ key → stage.rowOf other = [])
    (hempty : ∀ key, (stage.hand key).payloads = [])
    (hline : stage.returning ++ pending = .statement key :: r.pending) {events : List Event}
    (hmoves : r.Moves events
      { r.change key fun c => (c.store row).1 with pending := pending, reading := stage }) :
    d.Tells
      { r.change key fun c => (c.store row).1 with pending := pending, reading := stage } log := by
  have hhand : (r.reading.hand key).payloads = [] := by
    rw [hreading, ReaderStage.hand, if_pos rfl]
    rfl
  refine h.change htended hopen (by rw [hline, hreading]; rfl) (by rw [hreading]; rfl) hmoves
    (fun other hne => ⟨hempty other, hother other hne⟩) ?_
  intro before heard hbefore hheard hreports
  obtain rfl := Option.some.inj (hc.symm.trans hbefore)
  refine ⟨heard, ?_, hreports.store rfl ?_ hrows⟩
  · rw [hheard, hempty, hhand]
  · rw [hreading, ReaderStage.rowOf, if_pos rfl]

/-! ### Steps of the reader -/

/-- A frame that nobody takes changes nothing. -/
theorem Tells.skip (h : d.Tells r log) (hopen : r.isClosed = false) {frame : Frame}
    (hreading : r.reading = .reading) (hfind : r.pending.find? (r.accepts frame) = none) :
    (d.read frame).Tells r log := by
  have hwaiting : d.waiting = r.pending.map r.waiter := by
    rw [h.waiting hopen, hreading]
    rfl
  have hnobody : d.waiting.find? (Waiter.takes frame) = none := by
    rw [hwaiting, r.find_waiter, hfind]
    rfl
  rwa [read_of_none hnobody]

/-- A payload that leaves a row for the statement keeps its handler with the reader. -/
theorem Tells.hearRow (h : d.Tells r log) (htended : r.Tended log) (hopen : r.isClosed = false)
    {payload : List UInt8} {row : Row} {c : Channel}
    (hreading : r.reading = .decoding (.statement key) payload) (hc : r.channels[key]? = some c)
    (hlive : c.isDone = false) (hrow : (c.receive payload).2 = some row) {events : List Event}
    (hmoves : r.Moves events
      { r.change key fun c => (c.receive payload).1 with reading := .storing key row }) :
    d.Tells { r.change key fun c => (c.receive payload).1 with reading := .storing key row }
      log := by
  refine h.hear htended hopen hreading hc hlive ?_ ?_ ?_ ?_ hmoves
  · rw [hrow, ReaderStage.rowOf, if_pos rfl]
    rfl
  · exact fun other hne => if_neg (Ne.symm hne)
  · intro other
    dsimp only [ReaderStage.hand]
    split <;> rfl
  · intro hends
    rw [Channel.isDone_of_receive_row hrow] at hends
    rw [hreading, ReaderStage.returning_statement, ← hends]
    rfl

/-- After a payload without a row the handler is put back unless the statement has ended. -/
theorem Tells.hearNoRow (h : d.Tells r log) (htended : r.Tended log) (hopen : r.isClosed = false)
    {payload : List UInt8} {c : Channel}
    (hreading : r.reading = .decoding (.statement key) payload) (hc : r.channels[key]? = some c)
    (hlive : c.isDone = false) (hnone : (c.receive payload).2 = none) {events : List Event}
    (hmoves : r.Moves events
      { r.change key fun c => (c.receive payload).1 with
        pending := if (c.receive payload).1.isDone then r.pending else .statement key :: r.pending
        reading := .reading }) :
    d.Tells
      { r.change key fun c => (c.receive payload).1 with
        pending := if (c.receive payload).1.isDone then r.pending else .statement key :: r.pending
        reading := .reading }
      log := by
  refine h.hear htended hopen hreading hc hlive (by rw [hnone]; rfl) (fun _ _ => rfl)
    (fun _ => rfl) (fun hends => ?_) hmoves
  rw [hends, hreading, ReaderStage.returning_statement]
  cases Signal.endsWith payload <;> rfl

/-- After a row that is stored the handler is put back. -/
theorem Tells.storeRow (h : d.Tells r log) (htended : r.Tended log) (hopen : r.isClosed = false)
    {row : Row} {c : Channel} (hreading : r.reading = .storing key row)
    (hc : r.channels[key]? = some c) (hlive : c.isDone = false) (hstored : (c.store row).2 = true)
    {events : List Event}
    (hmoves : r.Moves events
      { r.change key fun c => (c.store row).1 with
        pending := if c.isDone then r.pending else .statement key :: r.pending
        reading := .reading }) :
    d.Tells
      { r.change key fun c => (c.store row).1 with
        pending := if c.isDone then r.pending else .statement key :: r.pending
        reading := .reading }
      log := by
  refine h.store htended hopen hreading hc (by rw [hstored]; rfl) (fun _ _ => rfl)
    (fun _ => rfl) ?_ hmoves
  simp [ReaderStage.returning, hlive]

/-- A row that waits for a slot leaves the reader where it is. -/
theorem Tells.stall (h : d.Tells r log) (htended : r.Tended log) (hopen : r.isClosed = false)
    {row : Row} {c : Channel} (hreading : r.reading = .storing key row)
    (hc : r.channels[key]? = some c) (hwaits : (c.store row).2 = false) {events : List Event}
    (hmoves : r.Moves events (r.change key fun c => (c.store row).1)) :
    d.Tells (r.change key fun c => (c.store row).1) log := by
  have hsame : r.change key (fun c => (c.store row).1) =
      { r.change key (fun c => (c.store row).1) with
        pending := r.pending
        reading := r.reading } := rfl
  rw [hsame, hreading] at hmoves ⊢
  refine h.store htended hopen hreading hc ?_ ?_ ?_ rfl hmoves
  · rw [hwaits, ReaderStage.rowOf, if_pos rfl]
    rfl
  · exact fun other hne => if_neg (Ne.symm hne)
  · intro other
    dsimp only [ReaderStage.hand]
    split <;> rfl

/-- Every step of the reader is told by the docket that deals with the frames which are read. -/
theorem Tells.step {codec : Codec} {r' : Roster} {f f' : Feed} {goesOn : Bool} {events : List Event}
    (h : d.Tells r log) (htended : r.Tended log) (hstopped : r.reading.isStopped = r.isClosed)
    (hstep : Roster.ReaderStep codec r f r' f' goesOn) (hmoves : r.Moves events r') :
    ((Roster.nextFrames codec f r.reading).foldl read d).Tells r' log := by
  have hnone (hreading : r.reading ≠ .reading) :
      (Roster.nextFrames codec f r.reading).foldl read d = d := by
    rw [Roster.nextFrames_of_ne hreading]
    rfl
  have hreads {frame : Option Frame} {rest : List UInt8} (hreading : r.reading = .reading)
      (hdecode : codec.decode f.buffer = (frame, rest)) :
      (Roster.nextFrames codec f r.reading).foldl read d = frame.toList.foldl read d := by
    rw [hreading, Roster.nextFrames, hdecode]
  have hopen {stage : ReaderStage} (hreading : r.reading = stage)
      (hgoesOn : stage.isStopped = false) : r.isClosed = false := by
    rw [← hstopped, hreading, hgoesOn]
  have hlive {key : Nat} {c : Channel} (hheld : r.reading.held? = some (.statement key))
      (hc : r.channels[key]? = some c) : c.isDone = false := by
    obtain ⟨c', hc', hlive⟩ := htended.exists_held hheld
    rwa [Option.some.inj (hc.symm.trans hc')]
  cases hstep with
  | skip hreading hdecode hfind =>
    rw [hreads hreading hdecode]
    exact h.skip (hopen hreading rfl) hreading hfind
  | take hreading hdecode hfind =>
    rw [hreads hreading hdecode]
    exact h.take (hopen hreading rfl) hreading hfind
  | wait hreading hdecode | chunk hreading hdecode | ended hreading hdecode =>
    rw [hreads hreading hdecode]
    exact h
  | close hreading hdecode hover =>
    rw [hreads hreading hdecode]
    exact h.close htended (hopen hreading rfl) hreading hmoves
  | answer hreading =>
    rw [hnone (by simp [hreading])]
    exact h.answer htended (hopen hreading rfl) hreading hmoves
  | hearRow hreading hc hrow =>
    rw [hnone (by simp [hreading])]
    exact h.hearRow htended (hopen hreading rfl) hreading hc (hlive (by rw [hreading]; rfl) hc)
      hrow hmoves
  | hear hreading hc hnothing =>
    rw [hnone (by simp [hreading])]
    exact h.hearNoRow htended (hopen hreading rfl) hreading hc (hlive (by rw [hreading]; rfl) hc)
      hnothing hmoves
  | store hreading hc hstored =>
    rw [hnone (by simp [hreading])]
    exact h.storeRow htended (hopen hreading rfl) hreading hc (hlive (by rw [hreading]; rfl) hc)
      hstored hmoves
  | stall hreading hc hwaits =>
    rw [hnone (by simp [hreading])]
    exact h.stall htended (hopen hreading rfl) hreading hc hwaits hmoves
  | rest hreading =>
    rw [hnone (by simp [hreading])]
    exact h

end Docket

end BeeProtocol
