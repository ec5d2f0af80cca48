import BeeProtocol.Proofs.Link.Answering
import BeeProtocol.Proofs.Link.Docket
import BeeProtocol.Proofs.Link.Lifecycle

/-!
# Dispatch

Whatever is done with a link that is spared, its docket tells how it stands. Beside the reader,
handlers join the queue and single replies leave it; statements keep what they have heard, and what
their callers take from them was there before.
-/

namespace BeeProtocol

namespace Roster

variable {r r' : Roster} {event : Option Event} {events log : List Event} {key : Nat}

/-! ### Statements that are opened -/

/-- What there is under the key of a statement that there was not: nothing, or what a fresh channel
has come to. -/
def Starts (r' : Roster) (key : Nat) (log : List Event) : Prop :=
  r'.channels[key]? = none ∧ Event.gainedFrom key log = [] ∨
    ∃ id capacity bound, r'.Brings key (.fresh id capacity bound) (Event.gainedFrom key log)

/-- A channel that is added has the next key. -/
theorem starts_append {id : UInt32} {capacity : Nat} {bound : Duration}
    (hnone : r.channels[key]? = none)
    (hchannels : r'.channels = r.channels ++ [.fresh id capacity bound]) : r'.Starts key [] := by
  rw [List.getElem?_eq_none_iff] at hnone
  by_cases hkey : key = r.channels.length
  · refine .inr ⟨id, capacity, bound, _, ?_, .refl _⟩
    rw [hchannels, hkey, List.getElem?_concat_length]
  · refine .inl ⟨?_, rfl⟩
    rw [hchannels, List.getElem?_eq_none_iff, List.length_append, List.length_singleton]
    omega

/-- No statement starts if none is added. -/
theorem starts_of_length (hnone : r.channels[key]? = none)
    (hlength : r'.channels.length = r.channels.length) (hgained : Event.gainedFrom key log = []) :
    r'.Starts key log := by
  rw [List.getElem?_eq_none_iff, ← hlength, ← List.getElem?_eq_none_iff] at hnone
  exact .inl ⟨hnone, hgained⟩

/-- A statement that starts in a move has heard and handed out nothing. -/
theorem Move.starts (hmove : r.Move event r') (hnone : r.channels[key]? = none) :
    r'.Starts key event.toList := by
  cases hmove with
  | beginStatement frame id capacity bound => exact starts_append hnone rfl
  | openStatement id capacity bound frame hstage hplain hentered hline =>
    exact starts_append hnone rfl
  | quit response hstage hline => exact starts_of_length hnone (quit_channels_length ..) rfl
  | close reader isAborted hheld hstops => exact starts_of_length hnone r.shut_channels_length rfl
  | @giveOut other c c' rows hchannel hgives =>
    refine starts_of_length hnone List.length_set ?_
    have hother : other ≠ key := by
      rintro rfl
      rw [hchannel] at hnone
      cases hnone
    simp [Event.gainedFrom, hother]
  | drop other => exact starts_of_length hnone (List.length_modify ..) rfl
  | hear row hreading hgoesOn hlive => exact starts_of_length hnone (List.length_modify ..) rfl
  | hearEnd hreading hgoesOn hchannel hdone =>
    exact starts_of_length hnone (List.length_modify ..) rfl
  | store hreading hgoesOn => exact starts_of_length hnone (List.length_modify ..) rfl
  | forgetStatement reader hheld hlost hempty =>
    exact starts_of_length hnone (List.length_modify ..) rfl
  | _ => exact .inl ⟨hnone, rfl⟩

/-- What becomes of a statement that there was not, as long as nothing is fed to it. -/
theorem Moves.starts (hmoves : r.Moves events r') (hunfed : .fed key ∉ events)
    (hnone : r.channels[key]? = none) : r'.Starts key events := by
  refine hmoves.invariant (P := fun r log => r.Starts key log) [] (fun hevent hmove hstarts => ?_)
    (.inl ⟨hnone, rfl⟩)
  unfold Starts
  rw [Event.gainedFrom_append]
  rcases hstarts with ⟨hnone, hgained⟩ | ⟨id, capacity, bound, hbrings⟩
  · rw [hgained, List.nil_append]
    exact hmove.starts hnone
  · refine .inr ⟨id, capacity, bound, hbrings.trans fun c' hc' => ?_⟩
    rcases hmove.fares hc' with hbrings' | ⟨hfed, -, -, -⟩
    · exact hbrings'
    · exact absurd (hevent _ hfed) hunfed

/-- Nothing was taken from a statement that there is not. -/
theorem Moves.unopened (hmoves : r.Moves events r') (hunfed : .fed key ∉ events)
    (hnone : r'.channels[key]? = none) :
    r.channels[key]? = none ∧ Event.gainedFrom key events = [] := by
  have hbefore : r.channels[key]? = none := by
    by_contra hsome
    obtain ⟨c, hc⟩ := Option.ne_none_iff_exists'.mp hsome
    obtain ⟨c', hc', -⟩ := hmoves.brings hunfed hc
    rw [hnone] at hc'
    cases hc'
  refine ⟨hbefore, ?_⟩
  rcases hmoves.starts hunfed hbefore with ⟨-, hgained⟩ | ⟨id, capacity, bound, c', hc', -⟩
  · exact hgained
  · rw [hnone] at hc'
    cases hc'

/-- What becomes of a single reply that there was. -/
theorem Moves.settled (hmoves : r.Moves events r') {reply' : ReplyHandler}
    (hreply' : r'.replies[key]? = some reply') (hknows : r.Knows (.reply key)) :
    ∃ reply, r.replies[key]? = some reply ∧ reply.ComesTo reply' := by
  obtain ⟨after, hafter, hcomes⟩ := hmoves.settles (List.getElem?_eq_getElem hknows)
  rw [Option.some.inj (hreply'.symm.trans hafter)]
  exact ⟨_, List.getElem?_eq_getElem hknows, hcomes⟩

/-! ### What is remembered besides -/

/-- A statement reports the same if neither registrations nor rows concern it. -/
theorem Reports.append_log {heard : List (List UInt8)} {c : Channel}
    (h : r.Reports log key heard c) (hjoins : Event.registeredIn events = [])
    (hgained : Event.gainedFrom key events = []) : r.Reports (log ++ events) key heard c := by
  refine ⟨h.live, ?_, ?_⟩
  · rw [Event.registeredIn_append, hjoins, List.append_nil]
    exact h.registered
  · rw [Event.gainedFrom_append, hgained, List.append_nil]
    exact h.rows

/-! ### Statements beside the reader -/

/-- A statement that is not fed and does not fail has heard what it had heard before. -/
theorem Reports.brings {heard : List (List UInt8)} {c c' : Channel}
    (h : r.Reports log key heard c) (hcomes : c.ComesTo (Event.gainedFrom key events) c')
    (hclosed : r'.isClosed = r.isClosed) (hreading : r'.reading = r.reading)
    (hdropped : c.isDropped → c'.isDropped)
    (hjoins : .statement key ∈ Event.registeredIn events →
      c.isDone = false ∧ r.isClosed = false)
    (hstays : r.isClosed = false → .statement key ∈ Event.registeredIn (log ++ events) →
      c.isDone = false → c'.isDone = false) :
    r'.Reports (log ++ events) key heard c' := by
  have hsame (hlive : c'.isDone = false) : c'.answer = c.answer := by
    refine hcomes.answer.resolve_right fun hlost => ?_
    rw [Channel.isDone_of_answer hlost, Channel.finish_isDone] at hlive
    cases hlive
  refine ⟨fun hlive => ?_, fun hregistered => ?_, fun hkept => ?_⟩
  · have hbefore : c.isDone = false := by rwa [← Channel.isDone_of_answer (hsame hlive)]
    exact (hsame hlive).trans (h.live hbefore)
  · have hmem := hregistered
    rw [Event.registeredIn_append, List.mem_append] at hmem
    rw [parting, hclosed]
    change c'.answer = Signal.answerOf (heard.map .ofPayload ++ r.parting)
    cases hdone : c.isDone with
    | true =>
      have hold := hmem.resolve_right fun hnew => by
        rw [(hjoins hnew).1] at hdone
        cases hdone
      rw [hcomes.answer_of_isDone hdone]
      exact h.registered hold
    | false =>
      have hopen : r.isClosed = false := by
        rcases hmem with hold | hnew
        · by_contra hover
          have hreflects := h.registered hold
          rw [parting, if_pos (by simpa using hover)] at hreflects
          have hends := hreflects.isDone_eq
          rw [Signal.isOver_append, hdone] at hends
          simp [Signal.isOver, Signal.ends] at hends
        · exact (hjoins hnew).2
      rw [parting_of_open hopen, List.append_nil, hsame (hstays hopen hregistered hdone)]
      exact h.live hdone
  · have hbefore : c.isDropped = false := by
      by_contra hgone
      rw [hdropped (by simpa using hgone)] at hkept
      cases hkept
    have hall := h.rows hbefore
    rw [← hcomes.rows] at hall
    rw [Event.gainedFrom_append, hreading, ← hall]
    simp only [List.append_assoc]

/-- The handlers that the reader will put back belong to statements. -/
theorem exists_of_returning {stage : ReaderStage} {handler : Handler}
    (h : handler ∈ stage.returning) : ∃ key, handler = .statement key := by
  cases stage with
  | decoding other payload =>
    cases other with
    | statement key => exact ⟨key, (Option.some.inj (held_of_returning h)).symm⟩
    | reply key => cases h
  | storing key row => exact ⟨key, List.mem_singleton.mp h⟩
  | _ => cases h

end Roster

/-- The single replies that are not among those that stay are those that leave. -/
theorem filter_stays_leavers (handlers : List Handler) (keep : Nat → Bool) :
    (handlers.filter (Handler.stays fun key =>
        key ∉ (replyKeys handlers).filter fun key =>
          !(handlers.filter (Handler.stays keep)).contains (.reply key))) =
      handlers.filter (Handler.stays keep) := by
  refine List.filter_congr fun handler hmem => ?_
  cases handler with
  | statement key => rfl
  | reply key =>
    have hcontains : (handlers.filter (Handler.stays keep)).contains (.reply key) = keep key := by
      rw [Bool.eq_iff_iff, List.contains_iff_mem, List.mem_filter]
      exact and_iff_right hmem
    have hleaves : (key ∈ (replyKeys handlers).filter fun key =>
        !(handlers.filter (Handler.stays keep)).contains (.reply key)) ↔ keep key = false := by
      rw [List.mem_filter, hcontains, Bool.not_eq_true']
      exact and_iff_right (mem_replyKeys.mpr hmem)
    simp only [Handler.stays, hleaves, Bool.not_eq_false, Bool.decide_eq_true]

namespace Link

open Docket (Item note)

variable {s : Link} {action : Action} {log : List Event} {d : Docket} {handler : Handler}

/-! ### What an action is to the docket -/

/-- The single replies that are given up in an action. -/
def leaversAt (s : Link) : Action → List Nat
  | .turn .reader => []
  | action => (replyKeys (s.met action).pending).filter fun key =>
      !(s.act action).pending.contains (.reply key)

/-- What the docket deals with in an action. -/
def itemsAt (s : Link) (action : Action) : List Item :=
  (s.framesAt action).map .read ++
    ((Event.registeredIn (s.eventsAt action)).map s.roster.waiter).map .joined ++
      (s.leaversAt action).map .left

/-- A turn of the reader notes the frames that it reads. -/
theorem foldl_itemsAt_reader (d : Docket) (hgoesOn : s.reader.isAborted = false) :
    (s.itemsAt (.turn .reader)).foldl note d =
      (Roster.nextFrames s.codec s.feed s.reader.stage).foldl Docket.read d := by
  have hnobody : Event.registeredIn (s.eventsAt (.turn .reader)) = [] := s.registeredIn_reader
  rw [itemsAt, hnobody, framesAt_reader hgoesOn]
  simp only [leaversAt, List.map_nil, List.append_nil, List.foldl_map]
  rfl

/-- Any other action notes who joins the queue and who leaves it. -/
theorem foldl_itemsAt_of_ne (d : Docket) (hother : action ≠ .turn .reader) :
    (s.itemsAt action).foldl note d =
      { d with
        waiting :=
          (d.waiting ++ (Event.registeredIn (s.eventsAt action)).map s.roster.waiter).filter
            fun waiter => waiter.handler.stays fun key => key ∉ s.leaversAt action } := by
  rw [itemsAt, framesAt_of_ne hother, List.map_nil, List.nil_append, List.foldl_append,
    Docket.foldl_joined, Docket.foldl_left]

/-- Who is registered in an action was carried by a call before, and the link is open. -/
theorem goesOn_of_registered (htended : s.roster.Tended log)
    (hmem : handler ∈ Event.registeredIn (s.eventsAt action)) :
    s.roster.goesOn handler ∧ s.isClosed = false := by
  constructor
  · rcases s.registers_cases action with hnone | ⟨t, purpose, frame, other, -, hstage, -, hone⟩
    · rw [hnone] at hmem
      cases hmem
    · rw [hone] at hmem
      obtain rfl := List.mem_singleton.mp hmem
      refine (htended.tenure handler).live ?_
      have hcarried : 0 < s.roster.carried handler :=
        List.countP_pos_iff.mpr ⟨_, List.mem_of_getElem? hstage, by simp [Stage.carries?]⟩
      unfold Roster.places
      omega
  · by_contra hclosed
    rw [Bool.not_eq_false] at hclosed
    obtain ⟨⟨t, other⟩, hregistered, hother⟩ := List.mem_map.mp hmem
    obtain rfl : other = handler := hother
    obtain ⟨event, hevent, hsome⟩ := List.mem_filterMap.mp hregistered
    cases event with
    | registered t' handler' =>
      simp only [Option.some.injEq, Prod.mk.injEq] at hsome
      obtain ⟨rfl, rfl⟩ := hsome
      have hnone := registered_notMem_of_isClosed (t := t') hclosed [action] handler'
      exact hnone (List.mem_append_left _ hevent)
    | _ => cases hsome

/-- A statement that waits goes on waiting beside the reader. -/
theorem goesOn_act_of_ne (htended : s.roster.Tended log) (hheld : s.isHeld)
    (hspared : s.isSpared action) (hother : action ≠ .turn .reader) {key : Nat}
    (hregistered : .statement key ∈ Event.registeredIn (log ++ s.eventsAt action))
    (hgoesOn : s.roster.goesOn (.statement key)) :
    (s.act action).roster.goesOn (.statement key) := by
  have hspares := s.spares_act hheld hspared hother
  obtain ⟨keep, hkeep⟩ := hspares.pending
  have hstays (hmem : .statement key ∈ s.pending ++ Event.registeredIn (s.eventsAt action)) :
      0 < (s.act action).roster.pending.count (.statement key) := by
    refine List.count_pos_iff.mpr ?_
    change _ ∈ (s.act action).pending
    rw [hkeep]
    exact List.mem_filter.mpr ⟨hmem, rfl⟩
  refine ((tended_act htended hspared).tenure (.statement key)).live ?_
  rw [Event.registeredIn_append, List.mem_append] at hregistered
  rcases hregistered with hold | hnew
  · rcases htended.mem_pending hold rfl hgoesOn with hwaits | hholds
    · have hcount := hstays (List.mem_append_left _ hwaits)
      unfold Roster.places
      omega
    · have hreading : (s.act action).roster.reading.held? = some (.statement key) := by
        rw [← hholds]
        exact congrArg ReaderStage.held? hspares.reading
      have hone := Roster.held_eq hreading (.statement key)
      rw [if_pos rfl] at hone
      unfold Roster.places
      omega
  · have hcount := hstays (List.mem_append_right _ hnew)
    unfold Roster.places
    omega

/-- The queue of an open link is the one of the docket, in whatever way it changes beside the
reader. -/
theorem waiting_act_of_ne (h : d.Tells s.roster log) (htended : s.roster.Tended log)
    (hheld : s.isHeld) (hspared : s.isSpared action) (hother : action ≠ .turn .reader)
    (hopen : s.isClosed = false) :
    ((s.itemsAt action).foldl note d).waiting =
      ((s.act action).roster.reading.returning ++ (s.act action).roster.pending).map
        (s.act action).roster.waiter := by
  have hspares := s.spares_act hheld hspared hother
  have hmoves := s.act_moves action
  obtain ⟨keep, hkeep⟩ := hspares.pending
  have hreading : (s.act action).roster.reading = s.roster.reading := hspares.reading
  have hleavers : s.leaversAt action = (replyKeys (s.met action).pending).filter fun key =>
      !((s.met action).pending.filter (Handler.stays keep)).contains (.reply key) := by
    rw [← hkeep]
    cases action with
    | turn actor =>
      cases actor with
      | reader => exact absurd rfl hother
      | task t => rfl
    | _ => rfl
  have hfilter : (s.met action).pending.filter
      (Handler.stays fun key => key ∉ s.leaversAt action) = (s.act action).roster.pending := by
    rw [hleavers, filter_stays_leavers]
    exact hkeep.symm
  have hreturning : s.roster.reading.returning.filter
      (Handler.stays fun key => key ∉ s.leaversAt action) = s.roster.reading.returning := by
    refine List.filter_eq_self.mpr fun handler hmem => ?_
    obtain ⟨key, rfl⟩ := Roster.exists_of_returning hmem
    rfl
  rw [foldl_itemsAt_of_ne d hother, h.waiting hopen]
  dsimp only
  rw [← List.map_append, List.append_assoc, List.filter_map, hreading]
  change ((s.roster.reading.returning ++ (s.met action).pending).filter
    (Handler.stays fun key => key ∉ s.leaversAt action)).map s.roster.waiter = _
  rw [List.filter_append, hreturning, hfilter]
  refine List.map_congr_left fun handler hmem => (hmoves.waiter ?_).symm
  rcases List.mem_append.mp hmem with hreturns | hwaits
  · exact Roster.knows_of_goesOn (htended.goesOn_of_held (Roster.held_of_returning hreturns))
  · have hline : handler ∈ s.pending ++ Event.registeredIn (s.eventsAt action) :=
      (List.mem_filter.mp (hfilter ▸ hwaits)).1
    rcases List.mem_append.mp hline with hbefore | hjoins
    · exact Roster.knows_of_goesOn (htended.goesOn_of_pending hbefore)
    · exact Roster.knows_of_goesOn (goesOn_of_registered htended hjoins).1

/-- A statement that there was reports what it reported before. -/
theorem reports_act_of_ne {heard : List (List UInt8)} {key : Nat} {c c' : Channel}
    (h : s.roster.Reports log key heard c) (htended : s.roster.Tended log) (hheld : s.isHeld)
    (hspared : s.isSpared action) (hother : action ≠ .turn .reader)
    (hc : s.roster.channels[key]? = some c)
    (hc' : (s.act action).roster.channels[key]? = some c') :
    (s.act action).roster.Reports (log ++ s.eventsAt action) key heard c' := by
  have hspares := s.spares_act hheld hspared hother
  have hunfed : .fed key ∉ s.eventsAt action := fun hfed => hother (held_of_fed hfed).1
  obtain ⟨after, hafter, hcomes⟩ := (s.act_moves action).brings hunfed hc
  obtain rfl : after = c' := Option.some.inj (hafter.symm.trans hc')
  refine h.brings hcomes hspares.isClosed hspares.reading (fun hdropped => ?_)
    (fun hjoins => ?_) fun hopen hregistered hlive => ?_
  · obtain ⟨same, hsame, hheeds⟩ := hspares.heeds key c hc
    rw [Option.some.inj (hc'.symm.trans hsame)]
    exact hheeds.dropped hdropped
  · obtain ⟨hgoesOn, hopen⟩ := goesOn_of_registered htended hjoins
    obtain ⟨same, hsame, hlive⟩ := Roster.goesOn_statement_iff.mp hgoesOn
    rw [Option.some.inj (hc.symm.trans hsame)]
    exact ⟨hlive, hopen⟩
  · have hgoesOn := goesOn_act_of_ne htended hheld hspared hother hregistered
      (Roster.goesOn_statement_iff.mpr ⟨c, hc, hlive⟩)
    obtain ⟨same, hsame, hlive'⟩ := Roster.goesOn_statement_iff.mp hgoesOn
    rwa [Option.some.inj (hc'.symm.trans hsame)]

/-- A statement that was opened in an action has heard nothing. -/
theorem reports_opened (h : d.Tells s.roster log) (htended : s.roster.Tended log) (hheld : s.isHeld)
    (hspared : s.isSpared action) (hother : action ≠ .turn .reader) {key : Nat} {c' : Channel}
    (hc : s.roster.channels[key]? = none)
    (hc' : (s.act action).roster.channels[key]? = some c') :
    d.payloads (.statement key) = ((s.act action).roster.reading.hand key).payloads ∧
      (s.act action).roster.Reports (log ++ s.eventsAt action) key [] c' := by
  have hreading : (s.act action).roster.reading = s.roster.reading :=
    (s.spares_act hheld hspared hother).reading
  have hunfed : .fed key ∉ s.eventsAt action := fun hfed => hother (held_of_fed hfed).1
  have hunknown : ¬ s.roster.Knows (.statement key) :=
    Nat.not_lt.mpr (List.getElem?_eq_none_iff.mp hc)
  have hfree : s.roster.reading.held? ≠ some (.statement key) := fun hholds =>
    hunknown (Roster.knows_of_goesOn (htended.goesOn_of_held hholds))
  obtain ⟨hhand, hrow⟩ := Roster.hands_of_held_ne hfree
  obtain ⟨id, capacity, bound, after, hafter, hcomes⟩ :=
    ((s.act_moves action).starts hunfed hc).resolve_left fun hnone => by
      rw [hc'] at hnone
      cases hnone.1
  obtain rfl : after = c' := Option.some.inj (hafter.symm.trans hc')
  constructor
  · rw [hreading, hhand]
    exact List.eq_nil_iff_forall_not_mem.mpr fun payload hmem =>
      hunknown (h.knows_of_payload hmem)
  · refine ⟨fun hlive => ?_, fun hregistered => ?_, fun _ => ?_⟩
    · refine hcomes.answer.resolve_right fun hlost => ?_
      rw [Channel.isDone_of_answer hlost, Channel.finish_isDone] at hlive
      cases hlive
    · rw [Event.registeredIn_append, List.mem_append] at hregistered
      rcases hregistered with hold | hnew
      · exact absurd (htended.lays _ hold).2 hunknown
      · exact absurd (Roster.knows_of_goesOn (goesOn_of_registered htended hnew).1) hunknown
    · rw [Event.gainedFrom_append, h.unopened key hc, hreading, hrow, List.nil_append,
        List.append_nil, hcomes.rows]
      rfl

/-- Beside the reader only those who are registered begin to wait. -/
theorem mem_waiting_itemsAt (hother : action ≠ .turn .reader) {waiter : Waiter}
    (hmem : waiter ∈ ((s.itemsAt action).foldl note d).waiting) :
    waiter ∈ d.waiting ∨ ∃ handler ∈ Event.registeredIn (s.eventsAt action),
      s.roster.waiter handler = waiter := by
  rw [foldl_itemsAt_of_ne d hother] at hmem
  exact (List.mem_append.mp (List.mem_filter.mp hmem).1).imp id List.mem_map.mp

/-- Whatever is done beside the reader, the docket that deals with it tells how the link stands. -/
theorem tells_act_of_ne (h : d.Tells s.roster log) (htended : s.roster.Tended log)
    (hheld : s.isHeld) (hspared : s.isSpared action) (hother : action ≠ .turn .reader) :
    ((s.itemsAt action).foldl note d).Tells (s.act action).roster (log ++ s.eventsAt action) := by
  have hspares := s.spares_act hheld hspared hother
  have hmoves := s.act_moves action
  have hreading : (s.act action).roster.reading = s.roster.reading := hspares.reading
  have hclosed : (s.act action).roster.isClosed = s.roster.isClosed := hspares.isClosed
  have hunfed (key : Nat) : .fed key ∉ s.eventsAt action := fun hfed => hother (held_of_fed hfed).1
  have hgiven : ((s.itemsAt action).foldl note d).given = d.given := by
    rw [foldl_itemsAt_of_ne d hother]
  have hpayloads (handler : Handler) :
      ((s.itemsAt action).foldl note d).payloads handler = d.payloads handler := by
    unfold Docket.payloads
    rw [hgiven]
  constructor
  · exact fun hopen => waiting_act_of_ne h htended hheld hspared hother (hclosed.symm.trans hopen)
  · intro waiter hmem
    rcases hmem with hmem | hmem
    · rcases mem_waiting_itemsAt hother hmem with hbefore | ⟨handler, hjoins, rfl⟩
      · exact hmoves.knowsWaiter (h.known waiter (.inl hbefore))
      · exact hmoves.knowsWaiter
          ⟨Roster.knows_of_goesOn (goesOn_of_registered htended hjoins).1, rfl⟩
    · rw [hgiven] at hmem
      exact hmoves.knowsWaiter (h.known waiter (.inr hmem))
  · intro key c' hc'
    rw [hpayloads]
    cases hc : s.roster.channels[key]? with
    | some c =>
      obtain ⟨heard, hheard, hreports⟩ := h.statements key c hc
      rw [hreading]
      exact ⟨heard, hheard, reports_act_of_ne hreports htended hheld hspared hother hc hc'⟩
    | none => exact ⟨[], reports_opened h htended hheld hspared hother hc hc'⟩
  · intro key hnone
    obtain ⟨hbefore, hgained⟩ := hmoves.unopened (hunfed key) hnone
    rw [Event.gainedFrom_append, h.unopened key hbefore, hgained]
    rfl
  · intro key reply' hreply' payload hpayload
    rw [hpayloads] at hpayload
    obtain ⟨reply, hreply, hcomes⟩ := hmoves.settled hreply' (h.knows_of_payload hpayload)
    rw [hreading, hcomes.kind]
    refine (h.given key reply hreply payload hpayload).imp id fun houtcome => ?_
    rw [hcomes.complete (by rw [Promise.isComplete, houtcome]; rfl), houtcome]
  · intro hover key reply' hreply' hmem
    rw [hclosed] at hover
    obtain ⟨waiter, hwaiter, hhandler⟩ := List.mem_map.mp hmem
    have hbefore : .reply key ∈ d.handlers := by
      refine List.mem_map.mpr ⟨waiter, (mem_waiting_itemsAt hother hwaiter).resolve_right ?_,
        hhandler⟩
      rintro ⟨handler, hjoins, -⟩
      have hopen := (goesOn_of_registered htended hjoins).2
      rw [show s.isClosed = true from hover] at hopen
      cases hopen
    obtain ⟨reply, hreply, hcomes⟩ := hmoves.settled hreply' (h.knows_of_mem hbefore)
    have houtcome := h.lost hover key reply hreply hbefore
    rw [hcomes.complete (by rw [Promise.isComplete, houtcome]; rfl), houtcome]

/-! ### Every action -/

/-- The reader takes no rows from a response. -/
theorem gainedFrom_reader (s : Link) (key : Nat) :
    Event.gainedFrom key (s.eventsAt (.turn .reader)) = [] := by
  refine List.flatMap_eq_nil_iff.mpr fun event hmem => ?_
  have hturn : event ∈ s.turnEvents .reader := hmem
  rcases turnEvents_cases hturn with ⟨t, stage, hactor, -⟩ | ⟨-, -, hmem⟩
  · cases hactor
  · rcases readerEvents_cases hmem with ⟨handler, rfl⟩ | ⟨key, rfl, -⟩ <;> rfl

/-- What the docket tells of a link does not depend on what is remembered of a turn of the
reader. -/
theorem tells_append_log (h : d.Tells (s.act (.turn .reader)).roster log) :
    d.Tells (s.act (.turn .reader)).roster (log ++ s.eventsAt (.turn .reader)) where
  waiting := h.waiting
  known := h.known
  statements key c hc := by
    obtain ⟨heard, hheard, hreports⟩ := h.statements key c hc
    exact ⟨heard, hheard, hreports.append_log s.registeredIn_reader (s.gainedFrom_reader key)⟩
  unopened key hnone := by
    rw [Event.gainedFrom_append, h.unopened key hnone, gainedFrom_reader, List.append_nil]
  given := h.given
  lost := h.lost

/-- The frames that the docket reads are those that the reader reads. -/
theorem frames_itemsAt (s : Link) (action : Action) :
    (s.itemsAt action).filterMap Item.frame? = s.framesAt action := by
  have hread (frames : List Frame) : (frames.map Item.read).filterMap Item.frame? = frames := by
    rw [List.filterMap_map]
    exact List.filterMap_some
  have hjoined (waiters : List Waiter) :
      (waiters.map Item.joined).filterMap Item.frame? = [] := by
    rw [List.filterMap_map]
    exact List.filterMap_none waiters
  have hleft (keys : List Nat) : (keys.map Item.left).filterMap Item.frame? = [] := by
    rw [List.filterMap_map]
    exact List.filterMap_none keys
  rw [itemsAt, List.filterMap_append, List.filterMap_append, hread, hjoined, hleft,
    List.append_nil, List.append_nil]

/-- What is known of a link that was spared, given what has arrived, what the docket has dealt with
and what is remembered. -/
structure IsTold (s : Link) (arrived : List Inbound) (items : List Item) (log : List Event) :
    Prop where
  /-- What is known of the handlers and of the statements. -/
  tended : s.roster.Tended log
  /-- How far the reader has come. -/
  reads : s.Reads arrived (items.filterMap Item.frame?)
  /-- How the docket of the items tells the link to stand. -/
  tells : (Docket.ofItems items).Tells s.roster log

variable {arrived : List Inbound} {items : List Item}

/-- Whatever is done with a link that is spared, its docket tells how it stands. -/
theorem IsTold.act (h : s.IsTold arrived items log) (hspared : s.isSpared action) :
    (s.act action).IsTold (arrived ++ action.arrivals) (items ++ s.itemsAt action)
      (log ++ s.eventsAt action) where
  tended := tended_act h.tended hspared
  reads := by
    rw [List.filterMap_append, frames_itemsAt]
    exact h.reads.act h.tended hspared
  tells := by
    rw [Docket.ofItems, List.foldl_append]
    by_cases hreader : action = .turn .reader
    · subst hreader
      obtain ⟨⟨hstep, -, -⟩, -⟩ := h.reads.step h.tended
      have htold := h.tells.step h.tended h.reads.stopped hstep (s.act_moves (.turn .reader))
      rw [foldl_itemsAt_reader _ h.reads.goesOn]
      exact tells_append_log htold
    · exact tells_act_of_ne h.tells h.tended h.reads.held hspared hreader

/-- A fresh link is told by an empty docket. -/
theorem isTold_fresh (config : Config) : (fresh config).IsTold [] [] [] where
  tended := Roster.tended_fresh config
  reads := reads_fresh config
  tells :=
    { waiting := fun _ => rfl
      known := fun waiter hmem => by rcases hmem with hmem | hmem <;> cases hmem
      statements := fun key c hc => by cases hc
      unopened := fun _ _ => rfl
      given := fun key reply hreply => by cases hreply
      lost := fun hclosed => by cases hclosed }

/-! ### Runs -/

/-- Whether nobody closes the link or gives it up in a run, and no write fails. -/
def isSparedIn (s : Link) : List Action → Bool
  | [] => true
  | action :: actions => s.isSpared action && (s.act action).isSparedIn actions

/-- What arrives in a run. -/
def arrivalsIn (actions : List Action) : List Inbound := actions.flatMap Action.arrivals

/-- What the docket deals with in a run. -/
def itemsIn (s : Link) : List Action → List Item
  | [] => []
  | action :: actions => s.itemsAt action ++ (s.act action).itemsIn actions

/-- A link stays told by its docket in a run that spares the reader. -/
theorem IsTold.run {actions : List Action} (h : s.IsTold arrived items log)
    (hspared : s.isSparedIn actions) :
    (actions.foldl Link.act s).IsTold (arrived ++ arrivalsIn actions) (items ++ s.itemsIn actions)
      (log ++ s.journal actions) := by
  induction actions generalizing s arrived items log with
  | nil =>
    rw [arrivalsIn, List.flatMap_nil, itemsIn, journal, List.append_nil, List.append_nil,
      List.append_nil]
    exact h
  | cons action actions ih =>
    rw [isSparedIn, Bool.and_eq_true] at hspared
    have hrest := ih (h.act hspared.1) hspared.2
    simp only [List.append_assoc] at hrest
    exact hrest

/-- A run spares the reader if each of its two parts does. -/
theorem isSparedIn_append (before after : List Action) :
    s.isSparedIn (before ++ after) =
      (s.isSparedIn before && (before.foldl Link.act s).isSparedIn after) := by
  induction before generalizing s with
  | nil => rfl
  | cons action before ih =>
    rw [List.cons_append, isSparedIn, ih, isSparedIn, Bool.and_assoc]
    rfl

/-- The items of two parts of a run add up. -/
theorem itemsIn_append (before after : List Action) :
    s.itemsIn (before ++ after) = s.itemsIn before ++ (before.foldl Link.act s).itemsIn after := by
  induction before generalizing s with
  | nil => rfl
  | cons action before ih =>
    rw [List.cons_append, itemsIn, ih, itemsIn, List.append_assoc]
    rfl

end Link

end BeeProtocol
