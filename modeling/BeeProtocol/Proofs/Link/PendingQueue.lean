import BeeProtocol.Proofs.Link.Demultiplexing
import BeeProtocol.Proofs.Link.Journal
import BeeProtocol.Proofs.Link.Queueing
import BeeProtocol.Proofs.Link.Replies
import BeeProtocol.Proofs.Lists
import Mathlib.Data.List.Nodup

/-!
# The queue of handlers

The queue holds what is outstanding, in the order in which it was asked for. A frame goes to the
handler that was registered first among those that wait and take it, so of two statements with the
same id the earlier one gets every frame until it ends.
-/

namespace BeeProtocol

/-- The handlers that the reader took off the queue for a frame, one for each frame. -/
def Event.matchedIn (log : List Event) : List Handler :=
  log.filterMap fun
    | .matched handler => some handler
    | _ => none

/-- A handler that was matched is among those that were. -/
theorem Event.mem_matchedIn {log : List Event} {handler : Handler} (h : .matched handler ∈ log) :
    handler ∈ matchedIn log := List.mem_filterMap.mpr ⟨.matched handler, h, rfl⟩

namespace Roster

variable {r r' : Roster} {handler first second : Handler} {event : Option Event} {log : List Event}

/-! ### All that is known of the handlers -/

/-- How the handlers stand in a run in which calls bring only handlers of their own. -/
structure Orderly (r : Roster) (log : List Event) : Prop where
  /-- Every handler is in one place at most. -/
  tenure : ∀ handler, r.Tenure handler
  /-- No call carries a handler that was registered. -/
  lays : ∀ handler, r.Lays log handler
  /-- No handler was registered twice. -/
  nodup : (Event.registeredIn log).Nodup
  /-- The frames are on the wire in the order of registration. -/
  wire : WireOrder r.stages r.line log
  /-- Rivals stand in the queue in the order of registration. -/
  queue : r.QueueOrder r.lineup log
  /-- Calls bring handlers of their own. -/
  own : ∀ stage ∈ r.stages, stage.IsOwn
  /-- Every reply whose handler waits is claimed by a call. -/
  claimed : r.Claimed

/-- Every move keeps order unless it offers a reply to others. -/
theorem Move.orderly (hmove : r.Move event r') (hown : ∀ key, event ≠ some (.offered key))
    (h : r.Orderly log) : r'.Orderly (log ++ event.toList) where
  tenure handler := hmove.tenure (fun key hkey => absurd hkey (hown key)) (h.tenure handler)
  lays handler := hmove.lays (fun key hkey => absurd hkey (hown key)) (h.tenure handler)
    (h.lays handler)
  nodup := hmove.nodup_registered h.lays h.nodup
  wire := hmove.callMove.wireOrder h.wire
  queue := hmove.queueOrder h.tenure h.lays h.queue
  own := hmove.callMove.own hown h.own
  claimed := hmove.claimed h.own h.claimed

/-- Moves keep order unless they offer a reply to others. -/
theorem Moves.orderly {events : List Event} (hmoves : r.Moves events r')
    (hown : ∀ key, .offered key ∉ events) (h : r.Orderly log) : r'.Orderly (log ++ events) :=
  hmoves.invariant (P := fun r log => r.Orderly log) log
    (fun hevent hmove h => hmove.orderly (fun key hkey => hown key (hevent _ hkey)) h) h

/-- A fresh link is in order. -/
theorem orderly_fresh (config : Config) : (Link.fresh config).roster.Orderly [] where
  tenure := tenure_fresh config
  lays handler hmem := by simp [Event.registeredIn, Event.registrations] at hmem
  nodup := List.nodup_nil
  wire := wireOrder_fresh
  queue := ⟨by simp [lineup, Link.roster, Link.fresh, ReaderStage.held?], .nil⟩
  own := by simp [Link.roster, Link.fresh]
  claimed := by simp [Claimed, Link.roster, Link.fresh]

/-! ### Handlers that wait -/

/-- A handler that waits stands for what goes on. -/
theorem Tenure.goesOn_of_mem (h : r.Tenure handler) (hmem : handler ∈ r.pending) :
    r.goesOn handler := by
  have hcount := List.count_pos_iff.mpr hmem
  exact h.live (by unfold places; omega)

/-- No handler waits twice. -/
theorem Orderly.pending_nodup (h : r.Orderly log) : r.pending.Nodup := by
  refine List.nodup_iff_count_le_one.mpr fun handler => ?_
  have hunique := (h.tenure handler).unique
  unfold places at hunique
  omega

/-- The handler of a statement that was registered and goes on waits or is in the hands of the
reader. -/
theorem Orderly.kept (h : r.Orderly log) {key : Nat}
    (hregistered : .statement key ∈ Event.registeredIn log)
    (hgoesOn : r.goesOn (.statement key)) :
    .statement key ∈ r.pending ∨ r.reading.held? = some (.statement key) := by
  have hplaces := (h.tenure (.statement key)).kept key rfl hgoesOn
  obtain ⟨hcarried, -⟩ := h.lays (.statement key) hregistered
  unfold places at hplaces
  by_cases hmem : .statement key ∈ r.pending
  · exact .inl hmem
  · right
    rw [List.count_eq_zero.mpr hmem, hcarried] at hplaces
    by_contra hheld
    rw [held, beq_false_of_ne hheld] at hplaces
    exact absurd hplaces (by simp)

/-- A handler that waits was registered. -/
theorem Orderly.registered_of_mem (h : r.Orderly log) (hmem : handler ∈ r.pending) :
    handler ∈ Event.registeredIn log :=
  h.queue.registered handler (r.pending_sublist_lineup.subset hmem)

/-- Rivals wait in the order in which they were registered. -/
theorem Orderly.pair_registered (h : r.Orderly log) (hpair : [first, second].Sublist r.pending)
    (hrivals : r.Rivals first second) : [first, second].Sublist (Event.registeredIn log) :=
  List.pairwise_iff_forall_sublist.mp (h.queue.ordered.sublist r.pending_sublist_lineup) hpair
    hrivals

/-- A frame goes to the handler that was registered first among those that wait and take it. -/
theorem Orderly.find_eq (h : r.Orderly log) (frame : Frame) :
    r.pending.find? (r.accepts frame) =
      (Event.registeredIn log).find? fun handler =>
        r.pending.contains handler && r.accepts frame handler := by
  cases hfind : r.pending.find? (r.accepts frame) with
  | none =>
    have hnone := List.find?_eq_none.mp hfind
    refine (List.find?_eq_none.mpr fun handler _ hboth => ?_).symm
    simp only [List.contains_eq_mem, Bool.and_eq_true, decide_eq_true_eq] at hboth
    exact hnone handler hboth.1 hboth.2
  | some taker =>
    have hmem := List.mem_of_find?_eq_some hfind
    have htakes := List.find?_some hfind
    cases hearliest : (Event.registeredIn log).find? fun handler =>
        r.pending.contains handler && r.accepts frame handler with
    | none =>
      have hnone := List.find?_eq_none.mp hearliest taker (h.registered_of_mem hmem)
      simp [hmem, htakes] at hnone
    | some earliest =>
      have hboth := List.find?_some hearliest
      simp only [List.contains_eq_mem, Bool.and_eq_true, decide_eq_true_eq] at hboth
      by_contra hne
      have hother : earliest ≠ taker := fun heq => hne (by rw [heq])
      -- The other one would stand behind the taker in the queue and before it in the log.
      have hqueue := Lists.pair_of_find hfind hboth.1 hboth.2 hother
      have hlog := Lists.pair_of_find hearliest (h.registered_of_mem hmem) (by simp [hmem, htakes])
        (Ne.symm hother)
      exact Lists.not_both_orders h.nodup hlog (h.pair_registered hqueue ⟨frame, htakes, hboth.2⟩)

/-! ### The relative order of those that wait -/

/-- A handler that is known and neither carried by a call nor in the hands of the reader. -/
structure Outside (r : Roster) (handler : Handler) : Prop where
  /-- The handler stands for something. -/
  knows : r.Knows handler
  /-- No call carries it. -/
  carried : r.carried handler = 0
  /-- The reader does not hold it. -/
  held : r.reading.held? ≠ some handler

/-- A handler that waits is neither with a call nor with the reader. -/
theorem Orderly.outside (h : r.Orderly log) (hmem : handler ∈ r.pending) : r.Outside handler := by
  have hunique := (h.tenure handler).unique
  have hcount := List.count_pos_iff.mpr hmem
  unfold places at hunique
  refine ⟨knows_of_goesOn ((h.tenure handler).goesOn_of_mem hmem), by omega, fun hheld => ?_⟩
  rw [held_eq hheld handler, if_pos rfl] at hunique
  omega

/-- Only a frame that a handler takes brings it from the queue into the hands of the reader. -/
theorem Move.outside (hmove : r.Move event r') (hown : ∀ key, event ≠ some (.offered key))
    (hevent : event ≠ some (.matched handler)) (h : r.Outside handler) : r'.Outside handler := by
  have hle := hmove.carried_le (fun key hkey => absurd hkey (hown key)) h.knows
  refine ⟨hmove.knows h.knows, Nat.le_zero.mp (h.carried ▸ hle), ?_⟩
  have hheld := h.held
  cases hmove with
  | quit response hstage hline => rwa [quit_reading]
  | close reader isAborted hsame hstops => rwa [hsame]
  | @take frame other hreading hgoesOn hfind =>
    intro heq
    exact hevent (congrArg (fun handler => some (Event.matched handler)) (Option.some.inj heq))
  | @hear key payload row hreading hgoesOn hlive =>
    rw [hreading] at hheld
    exact hheld
  | forgetStatement reader hstatement hlost hempty => simp [hempty]
  | forgetReply reader hreply hempty => simp [hempty]
  | _ => first | exact hheld | simp [ReaderStage.held?]

/-- What a move does with the queue itself. -/
inductive PendingMove (r : Roster) : List Handler → Prop
  | thin {pending : List Handler} (h : pending.Sublist r.pending) : PendingMove r pending
  | join (handler : Handler) (hcarried : 0 < r.carried handler) :
    PendingMove r (r.pending ++ [handler])
  | putBack {handler : Handler} (hheld : r.reading.held? = some handler) :
    PendingMove r (handler :: r.pending)

/-- Every move is one of the queue. -/
theorem Move.pendingMove (hmove : r.Move event r') : r.PendingMove r'.pending := by
  cases hmove with
  | @register t purpose frame other hstage hwriter hopen =>
    exact .join other
      (List.countP_pos_iff.mpr ⟨_, List.mem_of_getElem? hstage, by simp [Stage.carries?]⟩)
  | @quit t stage response line hstage hline =>
    rw [quit_pending]
    cases stage.asks? with
    | none => exact .thin (.refl _)
    | some key => exact .thin List.filter_sublist
  | close reader isAborted hheld hstops => exact .thin r.shut_pending_sublist
  | take hreading hgoesOn hfind => exact .thin List.erase_sublist
  | putBack hreading hgoesOn hopen => exact .putBack (by rw [hreading]; rfl)
  | _ => exact .thin (.refl _)

/-- Two handlers outside the hands of the reader keep their order in the queue. -/
theorem PendingMove.order {pending : List Handler} (hmove : r.PendingMove pending)
    (hnodup : r.pending.Nodup) (hfirst : r.Outside first) (hsecond : r.Outside second)
    (horder : first ∈ r.pending → second ∈ r.pending → [first, second].Sublist r.pending)
    (hmem : first ∈ pending) (hmem' : second ∈ pending) : [first, second].Sublist pending := by
  cases hmove with
  | thin hpart =>
    exact Lists.pair_of_part hpart hnodup hmem hmem'
      (horder (hpart.subset hmem) (hpart.subset hmem'))
  | join handler hcarried =>
    have hold {other : Handler} (hother : r.Outside other) (hin : other ∈ r.pending ++ [handler]) :
        other ∈ r.pending := by
      rcases List.mem_append.mp hin with hin | hin
      · exact hin
      · rw [← List.mem_singleton.mp hin, hother.carried] at hcarried
        exact absurd hcarried (Nat.lt_irrefl 0)
    exact (horder (hold hfirst hmem) (hold hsecond hmem')).trans (List.sublist_append_left ..)
  | @putBack handler hheld =>
    have hold {other : Handler} (hother : r.Outside other) (hin : other ∈ handler :: r.pending) :
        other ∈ r.pending := by
      rcases List.mem_cons.mp hin with rfl | hin
      · exact absurd hheld hother.held
      · exact hin
    exact (horder (hold hfirst hmem) (hold hsecond hmem')).cons handler

/-- Two handlers that wait keep their order as long as no frame is matched to one of them. -/
theorem Moves.order {events : List Event} (hmoves : r.Moves events r')
    (hown : ∀ key, .offered key ∉ events) (h : r.Orderly log)
    (hpair : [first, second].Sublist r.pending) (hfirst : first ∉ Event.matchedIn events)
    (hsecond : second ∉ Event.matchedIn events) (hmem : first ∈ r'.pending)
    (hmem' : second ∈ r'.pending) : [first, second].Sublist r'.pending := by
  obtain ⟨hin, hin'⟩ := Lists.mem_of_pair hpair
  refine (hmoves.invariant (P := fun r log => r.Orderly log ∧ r.Outside first ∧ r.Outside second ∧
    (first ∈ r.pending → second ∈ r.pending → [first, second].Sublist r.pending)) log ?_
    ⟨h, h.outside hin, h.outside hin', fun _ _ => hpair⟩).2.2.2 hmem hmem'
  rintro r r' event log hevents hmove ⟨h, hout, hout', horder⟩
  have hquiet : ∀ key, event ≠ some (.offered key) := fun key hkey => hown key (hevents _ hkey)
  exact ⟨hmove.orderly hquiet h,
    hmove.outside hquiet (fun hmatched => hfirst (Event.mem_matchedIn (hevents _ hmatched))) hout,
    hmove.outside hquiet (fun hmatched => hsecond (Event.mem_matchedIn (hevents _ hmatched))) hout',
    hmove.pendingMove.order h.pending_nodup hout hout' horder⟩

end Roster

/-! ### Runs -/

namespace Link

/-- Whether an action brings the handler of a single reply that the call does not wait for. -/
def Action.bringsReply : Action → Bool
  | .call _ (.send _ (some (.reply _))) _ => true
  | .reply _ _ _ => true
  | _ => false

/-- What is remembered of a run. -/
def journalOf (config : Config) (actions : List Action) : List Event :=
  (fresh config).journal actions

/-- The queue of a link, given what is remembered of the run. -/
structure QueueInOrder (s : Link) (log : List Event) : Prop where
  /-- No handler waits twice, and none is registered twice. -/
  nodup : s.pending.Nodup
  /-- No handler was registered twice. -/
  registered_once : (Event.registeredIn log).Nodup
  /-- The handler of a single reply waits only as long as its call does and has no answer. -/
  reply_waits : ∀ key, .reply key ∈ s.pending →
    (∃ task ∈ s.tasks, task.stage.claims? = some key) ∧
      ∃ h, s.replies[key]? = some h ∧ h.promise.outcome = none
  /-- The handler of a statement waits only until the statement ends. -/
  statement_waits : ∀ key, .statement key ∈ s.pending →
    ∃ c, s.channels[key]? = some c ∧ c.isDone = false
  /-- The handler of a statement that goes on waits once it is registered, unless the reader holds
  it. -/
  kept : ∀ key c, .statement key ∈ Event.registeredIn log → s.channels[key]? = some c →
    c.isDone = false →
      .statement key ∈ s.pending ∨ s.reader.stage.held? = some (.statement key)
  /-- Those that take a common frame wait in the order in which they were registered. -/
  registration_order : ∀ first second, [first, second].Sublist s.pending →
    (∃ frame, s.accepts frame first ∧ s.accepts frame second) →
      [first, second].Sublist (Event.registeredIn log)
  /-- The frames were put into the out-buffer in that order. -/
  wire_order : (Event.encodedIn log).Sublist (Event.registeredIn log)
  /-- A frame goes to the handler that was registered first among those that wait and take it. -/
  dispatch : ∀ frame, (s.takeMatch frame).1 = (Event.registeredIn log).find? fun handler =>
    s.pending.contains handler && s.accepts frame handler
  /-- Of two statements with the same id, the later one gets no frame before the earlier one has
  ended. -/
  earlier_first : s.reader.stage.held? = none → ∀ first second c c',
    [.statement first, .statement second].Sublist (Event.registeredIn log) →
      s.channels[first]? = some c → s.channels[second]? = some c' → c.id = c'.id →
        c.isDone = false → ∀ frame, (s.takeMatch frame).1 ≠ some (.statement second)

variable {s : Link} {log : List Event}

/-- Only those actions bring the handler of a reply that others wait for. -/
theorem offered_notMem_eventsAt {action : Action} (h : action.bringsReply = false) (key : Nat) :
    .offered key ∉ s.eventsAt action := by
  cases action with
  | call label call hplain =>
    cases call with
    | send frame handler =>
      rcases handler with - | other | other
      · exact List.not_mem_nil
      · exact List.not_mem_nil
      · cases h
    | _ => exact List.not_mem_nil
  | reply label frame kind => cases h
  | next channel =>
    dsimp only [eventsAt]
    split <;> simp
  | turn actor =>
    intro hmem
    rcases turnEvents_cases hmem with ⟨t, stage, -, hmem⟩ | ⟨-, -, hmem⟩
    · simpa using callEvents_cases hmem
    · simpa using readerEvents_cases hmem
  | _ => exact List.not_mem_nil

/-- Nobody is offered a reply in a run in which nobody brings one. -/
theorem offered_notMem_journal {actions : List Action}
    (h : ∀ action ∈ actions, action.bringsReply = false) (key : Nat) :
    .offered key ∉ s.journal actions := by
  induction actions generalizing s with
  | nil => simp [journal]
  | cons action actions ih =>
    rw [journal, List.mem_append, not_or]
    exact ⟨offered_notMem_eventsAt (h action (by simp)) key,
      ih fun action hmem => h action (List.mem_cons_of_mem _ hmem)⟩

/-- A frame is for the first handler that takes it. -/
theorem takeMatch_fst (s : Link) (frame : Frame) :
    (s.takeMatch frame).1 = s.roster.pending.find? (s.roster.accepts frame) := by
  rw [accepts_roster]
  unfold takeMatch
  change _ = s.pending.find? (s.accepts frame)
  cases s.pending.find? (s.accepts frame) <;> rfl

/-- What the order of the roster says of the queue. -/
theorem queueInOrder_of_orderly (h : s.roster.Orderly log) : s.QueueInOrder log where
  nodup := h.pending_nodup
  registered_once := h.nodup
  reply_waits key hmem := by
    obtain ⟨stage, hstage, hclaims⟩ := h.claimed key hmem
    obtain ⟨task, htask, rfl⟩ := List.mem_map.mp hstage
    exact ⟨⟨task, htask, hclaims⟩,
      Roster.goesOn_reply_iff.mp ((h.tenure (.reply key)).goesOn_of_mem hmem)⟩
  statement_waits key hmem :=
    Roster.goesOn_statement_iff.mp ((h.tenure (.statement key)).goesOn_of_mem hmem)
  kept key c hregistered hc hlive :=
    h.kept hregistered (Roster.goesOn_statement_iff.mpr ⟨c, hc, hlive⟩)
  registration_order first second hpair hcommon := by
    refine h.pair_registered hpair ?_
    obtain ⟨frame, htakes, htakes'⟩ := hcommon
    exact ⟨frame, by rw [accepts_roster, htakes], by rw [accepts_roster, htakes']⟩
  wire_order := h.wire.order
  dispatch frame := by
    rw [takeMatch_fst, h.find_eq, accepts_roster]
    rfl
  earlier_first hempty first second c c' hpair hc hc' hid hlive frame htakes := by
    rw [takeMatch_fst, h.find_eq] at htakes
    have hlater := List.find?_some htakes
    obtain ⟨hmem, -⟩ := Lists.mem_of_pair hpair
    -- The earlier statement waits as well and takes whatever the later one takes.
    have hgoesOn : s.roster.goesOn (.statement first) :=
      Roster.goesOn_statement_iff.mpr ⟨c, hc, hlive⟩
    have hwaits : .statement first ∈ s.roster.pending := by
      refine (h.kept hmem hgoesOn).resolve_right ?_
      simp [roster, hempty]
    have hearlier : s.accepts frame (.statement first) := by
      rw [accepts_roster] at hlater
      simp only [Bool.and_eq_true] at hlater
      simpa [accepts, hc, hc', Channel.isCandidate, hid] using hlater.2
    by_cases hsame : first = second
    · subst hsame
      exact Lists.not_both_orders h.nodup hpair hpair
    · refine Lists.not_both_orders h.nodup hpair
        (Lists.pair_of_find htakes hmem ?_ (by simpa using hsame))
      simp [hwaits, accepts_roster, hearlier]

/-- In a run in which calls bring only handlers of their own, the queue is in order, and two
handlers that wait keep their order as long as no frame is matched to one of them. -/
theorem queueInOrder_runOf (config : Config) (actions : List Action)
    (hown : ∀ action ∈ actions, action.bringsReply = false) :
    (runOf config actions).QueueInOrder (journalOf config actions) ∧
    ∀ before after first second, actions = before ++ after →
      [first, second].Sublist (runOf config before).pending →
        first ∉ Event.matchedIn ((runOf config before).journal after) →
          second ∉ Event.matchedIn ((runOf config before).journal after) →
            first ∈ (runOf config actions).pending → second ∈ (runOf config actions).pending →
              [first, second].Sublist (runOf config actions).pending := by
  have horderly (actions : List Action) (hown : ∀ action ∈ actions, action.bringsReply = false) :
      (runOf config actions).roster.Orderly (journalOf config actions) :=
    (run_moves (fresh config) actions).orderly (offered_notMem_journal hown)
      (Roster.orderly_fresh config)
  refine ⟨queueInOrder_of_orderly (horderly actions hown), ?_⟩
  rintro before after first second rfl hpair hfirst hsecond hmem hmem'
  have hbefore := horderly before fun action hin => hown action (List.mem_append_left _ hin)
  have hafter : ∀ action ∈ after, action.bringsReply = false :=
    fun action hin => hown action (List.mem_append_right _ hin)
  have hmoves := run_moves (runOf config before) after
  rw [runOf_append] at hmem hmem' ⊢
  exact hmoves.order (offered_notMem_journal hafter) hbefore hpair hfirst hsecond hmem hmem'

/-- Two statements with the same id, and a request. -/
def sameId : List Action :=
  submission 0 7 ++ submission 1 7 ++
    .call 2 (.request .ping .ping (.ofSeconds 1)) rfl :: List.replicate 4 (.turn (.task 2))

/-- The header of the earlier statement, which is put back in front of the others. -/
def headerFirst : List Action := reception [⟨3, [0, 0, 0, 7, 0, 0]⟩]

/-- The earlier statement gets the header, and the others wait as before. -/
theorem queueInOrder_sameId :
    (runOf (.defaults "" 0) sameId).pending = [.statement 0, .statement 1, .reply 0] ∧
      Event.matchedIn ((runOf (.defaults "" 0) sameId).journal headerFirst) = [.statement 0] ∧
      (runOf (.defaults "" 0) (sameId ++ headerFirst)).QueueInOrder
        (journalOf (.defaults "" 0) (sameId ++ headerFirst)) ∧
      [.statement 1, .reply 0].Sublist
        (runOf (.defaults "" 0) (sameId ++ headerFirst)).pending := by
  obtain ⟨hqueue, horder⟩ :=
    queueInOrder_runOf (.defaults "" 0) (sameId ++ headerFirst) (by decide)
  refine ⟨by decide, by decide, hqueue, ?_⟩
  exact horder sameId headerFirst (.statement 1) (.reply 0) rfl (by decide) (by decide)
    (by decide) (by decide) (by decide)

end Link

end BeeProtocol
