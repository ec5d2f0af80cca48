import BeeProtocol.Proofs.Link.Registration

/-!
# The order of the queue

Two handlers that take a common frame stand in the queue in the order in which they were registered,
although the handler of a statement is put back in front of all others: it was in front of its
rivals when the reader took it off.
-/

namespace BeeProtocol

/-- Which frames a handler takes. -/
inductive Scope
  /-- Responses to the statement with this id. -/
  | statement (id : UInt32)
  /-- All messages of this kind. -/
  | reply (kind : MessageKind)
  deriving DecidableEq

namespace Scope

/-- Whether a frame is in the scope. -/
def takes (frame : Frame) : Scope → Bool
  | statement id =>
    frame.type == MessageKind.statementResponse.frameType
      && StatementResponse.peekId frame.payload == some id
  | reply kind => kind.frameType == frame.type

/-- Whoever shares a frame with a statement takes all its frames. -/
theorem takes_of_common {id : UInt32} {scope : Scope} {frame common : Frame}
    (h : (statement id).takes common) (hother : scope.takes common)
    (hframe : (statement id).takes frame) : scope.takes frame := by
  simp only [takes, Bool.and_eq_true, beq_iff_eq] at h hframe
  cases scope with
  | statement other =>
    simp only [takes, Bool.and_eq_true, beq_iff_eq, h.2, Option.some.injEq] at hother ⊢
    exact ⟨hframe.1, by rw [hframe.2, hother.2]⟩
  | reply kind =>
    simp only [takes, beq_iff_eq] at hother ⊢
    rw [hother, h.1, hframe.1]

end Scope

namespace Roster

/-- The scope of a handler. -/
def scope? (r : Roster) : Handler → Option Scope
  | .statement key => (r.channels[key]?).map fun c => .statement c.id
  | .reply key => (r.replies[key]?).map fun h => .reply h.kind

/-- Two handlers that take a common frame. -/
def Rivals (r : Roster) (first second : Handler) : Prop :=
  ∃ frame, r.accepts frame first ∧ r.accepts frame second

variable {r r' : Roster} {handler : Handler} {event : Option Event} {log : List Event}

/-- A handler takes the frames of its scope. -/
theorem accepts_eq (r : Roster) (frame : Frame) (handler : Handler) :
    r.accepts frame handler = (r.scope? handler).any (Scope.takes frame) := by
  cases handler with
  | statement key =>
    cases h : r.channels[key]? <;> simp [accepts, scope?, h, Scope.takes, Channel.isCandidate]
  | reply key =>
    cases h : r.replies[key]? <;>
      simp [accepts, scope?, h, Scope.takes, ReplyHandler.frameType, ReplyHandler.isCandidate]

/-- What a handler takes never changes. -/
theorem Move.scope (hmove : r.Move event r') (hknows : r.Knows handler) :
    r'.scope? handler = r.scope? handler := by
  cases handler with
  | statement key =>
    obtain ⟨c, hc⟩ : ∃ c, r.channels[key]? = some c := ⟨_, List.getElem?_eq_getElem hknows⟩
    rcases hmove.fares hc with ⟨c', hc', hcomes⟩ | ⟨-, c', hc', hhears⟩
    · simp [scope?, hc, hc', hcomes.id]
    · simp [scope?, hc, hc', hhears.id]
  | reply key =>
    obtain ⟨h, hreply⟩ : ∃ h, r.replies[key]? = some h := ⟨_, List.getElem?_eq_getElem hknows⟩
    obtain ⟨h', hreply', hcomes⟩ := hmove.settles hreply
    simp [scope?, hreply, hreply', hcomes.kind]

/-- A handler takes the same frames after every move. -/
theorem Move.accepts (hmove : r.Move event r') (hknows : r.Knows handler) (frame : Frame) :
    r'.accepts frame handler = r.accepts frame handler := by
  rw [accepts_eq, accepts_eq, hmove.scope hknows]

/-! ### The queue with what the reader will put back -/

/-- The queue, and in front of it the handler of a statement that the reader holds. -/
def lineup (r : Roster) : List Handler :=
  match r.reading.held? with
  | some (.statement key) => .statement key :: r.pending
  | _ => r.pending

/-- What a move does with the queue. -/
inductive QueueMove (r : Roster) : Option Event → List Handler → Prop
  | thin (event : Option Event) {lineup : List Handler} (h : lineup.Sublist r.lineup) :
    QueueMove r event lineup
  | join (t : Nat) (handler : Handler) (hcarried : 0 < r.carried handler) :
    QueueMove r (some (.registered t handler)) (r.lineup ++ [handler])
  /-- The reader takes off the handler of a statement. -/
  | take {frame : Frame} {key : Nat} (hsame : r.lineup = r.pending)
    (hfind : r.pending.find? (r.accepts frame) = some (.statement key)) :
    QueueMove r (some (.matched (.statement key)))
      (.statement key :: r.pending.erase (.statement key))

/-- Without a handler with the reader the lineup is the queue. -/
theorem lineup_of_empty (h : r.reading.held? = none) : r.lineup = r.pending := by
  rw [lineup, h]

/-- The handler of a reply is not put back. -/
theorem lineup_of_reply {key : Nat} (h : r.reading.held? = some (.reply key)) :
    r.lineup = r.pending := by
  rw [lineup, h]

/-- The handler of a statement is first in the lineup while the reader holds it. -/
theorem lineup_of_statement {key : Nat} (h : r.reading.held? = some (.statement key)) :
    r.lineup = .statement key :: r.pending := by
  rw [lineup, h]

/-- Who waits in the queue is in the lineup in the same order. -/
theorem pending_sublist_lineup (r : Roster) : r.pending.Sublist r.lineup := by
  unfold lineup
  split
  · exact List.sublist_cons_self ..
  · exact .refl _

/-- Who leaves the queue leaves the order of the others. -/
theorem lineup_sublist (hheld : r'.reading.held? = r.reading.held?)
    (hpending : r'.pending.Sublist r.pending) : r'.lineup.Sublist r.lineup := by
  unfold lineup
  rw [hheld]
  split
  · exact hpending.cons_cons _
  · exact hpending

/-- Every move is one of the lineup. -/
theorem Move.queueMove (hmove : r.Move event r') : r.QueueMove event r'.lineup := by
  cases hmove with
  | @register t purpose frame handler hstage hwriter hopen =>
    have hjoined : ({ r with pending := r.pending ++ [handler] } : Roster).lineup =
        r.lineup ++ [handler] := by
      rcases hheld : r.reading.held? with - | key | key <;> simp [lineup, hheld]
    have hcarried : 0 < r.carried handler :=
      List.countP_pos_iff.mpr ⟨_, List.mem_of_getElem? hstage, by simp [Stage.carries?]⟩
    have hjoin := QueueMove.join t handler hcarried
    rw [← hjoined] at hjoin
    exact hjoin
  | @quit t stage response line hstage hline =>
    refine .thin none (lineup_sublist (congrArg _ (quit_reading ..)) ?_)
    rw [quit_pending]
    cases stage.asks? with
    | none => exact .refl _
    | some key => exact List.filter_sublist
  | close reader isAborted hheld hstops =>
    exact .thin none (lineup_sublist hheld r.shut_pending_sublist)
  | @take frame handler hreading hgoesOn hfind =>
    have hsame : r.lineup = r.pending := lineup_of_empty (by rw [hreading]; rfl)
    cases handler with
    | statement key => exact .take hsame hfind
    | reply key =>
      refine .thin _ ?_
      rw [hsame]
      exact List.erase_sublist
  | @answer key payload hreading hgoesOn =>
    refine .thin none ?_
    have hbefore : r.lineup = r.pending := lineup_of_reply (by rw [hreading]; rfl)
    rw [hbefore]
    exact .refl _
  | @hear key payload row hreading hgoesOn hlive =>
    exact .thin _ (lineup_sublist (by rw [hreading]; rfl) (.refl _))
  | @hearEnd key payload c hreading hgoesOn hchannel hdone =>
    exact .thin _ r.pending_sublist_lineup
  | @putBack key row hreading hgoesOn hopen =>
    have hbefore : r.lineup = .statement key :: r.pending :=
      lineup_of_statement (by rw [hreading]; rfl)
    refine .thin none ?_
    rw [hbefore]
    exact .refl _
  | @forgetStatement key change reader hheld hlost hempty =>
    refine .thin none ?_
    rw [lineup_of_empty hempty]
    exact r.pending_sublist_lineup
  | @forgetReply key reader hheld hempty =>
    refine .thin none ?_
    rw [lineup_of_empty hempty]
    exact r.pending_sublist_lineup
  | halt hempty =>
    refine .thin none ?_
    exact r.pending_sublist_lineup
  | _ => exact .thin _ (.refl _)

/-! ### The order of registration -/

/-- Rivals stand in a line in the order in which they were registered. -/
structure QueueOrder (r : Roster) (lineup : List Handler) (log : List Event) : Prop where
  /-- Who stands in the line was registered. -/
  registered : ∀ handler ∈ lineup, handler ∈ Event.registeredIn log
  /-- The earlier one of two rivals was registered first. -/
  ordered : lineup.Pairwise fun first second =>
    r.Rivals first second → [first, second].Sublist (Event.registeredIn log)

/-- Part of a line, later. -/
theorem QueueOrder.thin {lineup part : List Handler} {later : List Event}
    (h : r.QueueOrder lineup log) (hpart : part.Sublist lineup)
    (hmore : (Event.registeredIn log).Sublist (Event.registeredIn later)) :
    r.QueueOrder part later where
  registered handler hmem := hmore.subset (h.registered handler (hpart.subset hmem))
  ordered := (h.ordered.sublist hpart).imp fun himp hrivals => (himp hrivals).trans hmore

/-- The rivals of a statement take all its frames. -/
theorem Rivals.accepts {key : Nat} {other : Handler} (h : r.Rivals (.statement key) other)
    {frame : Frame} (hframe : r.accepts frame (.statement key)) : r.accepts frame other := by
  obtain ⟨common, hfirst, hsecond⟩ := h
  simp only [accepts_eq, Option.any_eq_true] at hfirst hsecond hframe ⊢
  obtain ⟨scope, hscope, hcommon⟩ := hfirst
  obtain ⟨other, hother, hthat⟩ := hsecond
  obtain ⟨same, hsame, htakes⟩ := hframe
  rw [hscope, Option.some.injEq] at hsame
  subst hsame
  cases hchannel : r.channels[key]? with
  | none => simp [scope?, hchannel] at hscope
  | some c =>
    simp only [scope?, hchannel, Option.map_some, Option.some.injEq] at hscope
    subst hscope
    exact ⟨other, hother, Scope.takes_of_common hcommon hthat htakes⟩

/-- Who was registered stays so in the same order. -/
theorem registeredIn_sublist (log more : List Event) :
    (Event.registeredIn log).Sublist (Event.registeredIn (log ++ more)) := by
  rw [Event.registeredIn_append]
  exact List.sublist_append_left ..

/-- Every move of the lineup keeps the order in which handlers were registered. -/
theorem QueueMove.queueOrder {lineup : List Handler} (hmove : r.QueueMove event lineup)
    (h : r.QueueOrder r.lineup log) : r.QueueOrder lineup (log ++ event.toList) := by
  cases hmove with
  | thin _ hpart => exact h.thin hpart (registeredIn_sublist ..)
  | join t handler hcarried =>
    have hregistered : Event.registeredIn (log ++ [.registered t handler]) =
        Event.registeredIn log ++ [handler] := Event.registeredIn_append ..
    have hbefore := h.thin (.refl _) (registeredIn_sublist log [.registered t handler])
    rw [Option.toList_some]
    constructor
    · intro other hmem
      rcases List.mem_append.mp hmem with hmem | hmem
      · exact hbefore.registered other hmem
      · simp [hregistered, List.mem_singleton.mp hmem]
    · refine List.pairwise_append.mpr ⟨hbefore.ordered, List.pairwise_singleton .., ?_⟩
      intro other hmem last hlast _
      obtain rfl := List.mem_singleton.mp hlast
      rw [hregistered]
      exact (List.singleton_sublist.mpr (h.registered other hmem)).append_right [last]
  | @take frame key hsame hfind =>
    obtain ⟨front, back, hsplit, herase, hfront⟩ := Lists.find?_split hfind
    have hbefore := h.thin (.refl _) (registeredIn_sublist log [.matched (.statement key)])
    rw [hsame, hsplit] at hbefore
    have hrest : (front ++ back).Sublist (front ++ .statement key :: back) :=
      (List.Sublist.refl front).append (List.sublist_cons_self ..)
    rw [Option.toList_some, herase]
    constructor
    · intro other hmem
      refine hbefore.registered other ?_
      rcases List.mem_cons.mp hmem with rfl | hmem
      · simp
      · exact hrest.subset hmem
    · refine List.pairwise_cons.mpr ⟨fun other hmem hrivals => ?_, hbefore.ordered.sublist hrest⟩
      rcases List.mem_append.mp hmem with hmem | hmem
      · -- A rival in front would have got the frame.
        have htakes := hrivals.accepts (List.find?_some hfind)
        rw [hfront other hmem] at htakes
        cases htakes
      · have hback := (List.pairwise_append.mp hbefore.ordered).2.1
        exact List.rel_of_pairwise_cons hback hmem hrivals

/-- Every move keeps the order of the queue. -/
theorem Move.queueOrder (hmove : r.Move event r') (htenure : ∀ handler, r.Tenure handler)
    (hlays : ∀ handler, r.Lays log handler) (h : r.QueueOrder r.lineup log) :
    r'.QueueOrder r'.lineup (log ++ event.toList) := by
  have hqueue := hmove.queueMove
  have hafter := hqueue.queueOrder h
  have hbefore (handler : Handler) (hmem : handler ∈ r.lineup) : r.Knows handler :=
    (hlays handler (h.registered handler hmem)).2
  have hknown : ∀ handler ∈ r'.lineup, r.Knows handler := by
    generalize r'.lineup = lineup at hqueue
    intro handler hmem
    cases hqueue with
    | thin _ hpart => exact hbefore handler (hpart.subset hmem)
    | join t other hcarried =>
      rcases List.mem_append.mp hmem with hmem | hmem
      · exact hbefore handler hmem
      · obtain rfl := List.mem_singleton.mp hmem
        exact knows_of_goesOn ((htenure handler).live (by unfold places; omega))
    | @take frame key hsame hfind =>
      rw [hsame] at hbefore
      rcases List.mem_cons.mp hmem with rfl | hmem
      · exact hbefore _ (List.mem_of_find?_eq_some hfind)
      · exact hbefore handler (List.erase_sublist.subset hmem)
  -- Nobody changes what he takes, so the rivals stay the same.
  refine ⟨hafter.registered, hafter.ordered.imp_of_mem fun hfirst hsecond himp hrivals => ?_⟩
  obtain ⟨frame, htakes, htakes'⟩ := hrivals
  rw [hmove.accepts (hknown _ hfirst)] at htakes
  rw [hmove.accepts (hknown _ hsecond)] at htakes'
  exact himp ⟨frame, htakes, htakes'⟩

end Roster

end BeeProtocol
