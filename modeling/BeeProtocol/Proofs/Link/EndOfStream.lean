import BeeProtocol.Proofs.Link.Exchanges
import BeeProtocol.Proofs.Link.Fairness

/-!
# The end of the stream

Nothing that is received before the end of the stream is lost, in whatever pieces it arrives and
whatever is left over. The frames of the whole stream are read one after another, and the link is
closed when the last of them has been dealt with. So whoever is decided by one of these frames is
decided by it, and only those who still wait are told that the connection is closed. How the stream
was cut makes no difference.
-/

namespace BeeProtocol

namespace Signal

/-- No payload tells a statement that the connection is closed. -/
theorem failure?_ofPayload (payload : List UInt8) :
    (ofPayload payload).failure? ≠ some .connectionClosed := by
  unfold ofPayload
  split
  · rename_i response _
    cases response.event <;> simp [failure?]
  · simp [failure?]

/-- No payload says that the connection is closed. -/
theorem failureOf_map_ofPayload (payloads : List (List UInt8)) :
    failureOf (payloads.map ofPayload) ≠ some .connectionClosed := by
  intro hfailure
  obtain ⟨signal, hfind, hsignal⟩ := Option.bind_eq_some_iff.mp hfailure
  obtain ⟨payload, -, rfl⟩ := List.mem_map.mp (List.mem_of_find?_eq_some hfind)
  exact failure?_ofPayload payload hsignal

end Signal

/-- No payload tells a single reply that the connection is closed. -/
theorem MessageKind.outcomeOf_ne (kind : MessageKind) (payload : List UInt8) :
    kind.outcomeOf payload ≠ .error .connectionClosed := by
  unfold outcomeOf
  split <;> simp

/-- A statement has ended as its payloads tell, or because the connection is closed if none of them
ends it. As long as the response is kept, all its rows were taken from it or are still in it. -/
structure Channel.EndsBy (c : Channel) (payloads : List (List UInt8)) (taken : List Row) :
    Prop where
  /-- The statement answers what its payloads and the end of the link amount to. -/
  answer : c.answer = Signal.answerOf (payloads.map .ofPayload ++
    if payloads.any Signal.endsWith then [] else [.abandoned .connectionClosed])
  /-- It fails because the connection is closed exactly if no payload ends it. -/
  failure : c.failure = some .connectionClosed ↔ payloads.any Signal.endsWith = false
  /-- The rows that were taken and those that are left are all that were sent. -/
  rows : c.isDropped = false → taken ++ c.rows = Signal.accepted (payloads.map .ofPayload)

/-- What a statement reports on a closed link. -/
theorem Channel.endsBy_of_reflects {c : Channel} {payloads : List (List UInt8)} {taken : List Row}
    (hreflects : c.Reflects (payloads.map .ofPayload ++ [.abandoned .connectionClosed]))
    (hrows : c.isDropped = false → taken ++ c.rows = Signal.accepted (payloads.map .ofPayload)) :
    c.EndsBy payloads taken := by
  have hfailure : c.failure = Signal.failureOf
      (payloads.map .ofPayload ++ [.abandoned .connectionClosed]) :=
    congrArg (·.2.2) hreflects
  cases hends : payloads.any Signal.endsWith with
  | true =>
    have hover : Signal.isOver (payloads.map .ofPayload) := by rw [Signal.isOver_map, hends]
    refine ⟨?_, ?_, hrows⟩
    · rw [hends, if_pos rfl, List.append_nil]
      exact hreflects.trans (Signal.answerOf_append_of_isOver hover _)
    · rw [hfailure, Signal.failureOf_append_of_isOver hover, hends]
      simp [Signal.failureOf_map_ofPayload payloads]
  | false =>
    have hlive : Signal.isOver (payloads.map .ofPayload) = false := by
      rw [Signal.isOver_map, hends]
    refine ⟨?_, ?_, hrows⟩
    · rw [hends, if_neg (by simp)]
      exact hreflects
    · rw [hfailure, Signal.failureOf_append_singleton hlive, hends]
      simp [Signal.ends, Signal.failure?]

namespace Docket

/-- An item with the frame left open. -/
def Item.outline : Item → Option Item
  | .read _ => none
  | item => some item

/-- Items are known by their outlines and the frames among them. -/
theorem items_eq_of_outline {items items' : List Item}
    (houtline : items.map Item.outline = items'.map Item.outline)
    (hframes : items.filterMap Item.frame? = items'.filterMap Item.frame?) : items = items' := by
  induction items generalizing items' with
  | nil => exact (List.map_eq_nil_iff.mp houtline.symm).symm
  | cons item items ih =>
    cases items' with
    | nil => cases houtline
    | cons item' items' =>
      rw [List.map_cons, List.map_cons, List.cons.injEq] at houtline
      obtain ⟨hfirst, hrest⟩ := houtline
      have hother (h : item.frame? = none) (h' : item'.frame? = none) (hsame : item = item') :
          item :: items = item' :: items' := by
        rw [List.filterMap_cons_none h, List.filterMap_cons_none h'] at hframes
        rw [hsame, ih hrest hframes]
      cases item with
      | read frame =>
        cases item' with
        | read frame' =>
          obtain ⟨rfl, hmore⟩ := List.cons.inj (show frame :: _ = frame' :: _ from hframes)
          rw [ih hrest hmore]
        | _ => cases hfirst
      | _ =>
        cases item' with
        | read frame' => cases hfirst
        | _ => exact hother rfl rfl (Option.some.inj hfirst)

/-- The handler that joins the queue. -/
def Item.joined? : Item → Option Handler
  | .joined waiter => some waiter.handler
  | _ => none

end Docket

namespace Link

open Docket (Item)

variable {s s' : Link} {action : Action} {arrived : List Inbound} {items : List Item}
  {log : List Event}

/-! ### Who joined the queue -/

/-- Who joins the docket is who registers. -/
theorem joined_itemsAt (s : Link) (action : Action) :
    (s.itemsAt action).filterMap Item.joined? = Event.registeredIn (s.eventsAt action) := by
  have hread (frames : List Frame) : (frames.map Item.read).filterMap Item.joined? = [] := by
    rw [List.filterMap_map]
    exact List.filterMap_none frames
  have hjoined (handlers : List Handler) :
      ((handlers.map s.roster.waiter).map Item.joined).filterMap Item.joined? = handlers := by
    rw [List.filterMap_map, List.filterMap_map]
    exact List.filterMap_some
  have hleft (keys : List Nat) : (keys.map Item.left).filterMap Item.joined? = [] := by
    rw [List.filterMap_map]
    exact List.filterMap_none keys
  rw [itemsAt, List.filterMap_append, List.filterMap_append, hread, hjoined, hleft,
    List.append_nil, List.nil_append]

/-- Those who joined the queue of the docket are those who were registered. -/
theorem joined_itemsIn (s : Link) (actions : List Action) :
    (s.itemsIn actions).filterMap Item.joined? = Event.registeredIn (s.journal actions) := by
  induction actions generalizing s with
  | nil => rfl
  | cons action actions ih =>
    rw [itemsIn, List.filterMap_append, joined_itemsAt, ih, journal, Event.registeredIn_append]

/-! ### A link that was closed at the end of the stream -/

/-- The stream has ended, all its frames were read, and nobody waits any longer. Whoever was decided
by a frame is as that frame tells, and the others were told that the connection is closed. -/
structure IsThrough (s : Link) (codec : Codec) (arrived : List Inbound) (items : List Item)
    (log : List Event) : Prop where
  /-- The end of the stream has arrived. -/
  ended : Inbound.hasEnded arrived
  /-- All frames of the stream were read. -/
  frames : items.filterMap Item.frame? = (codec.decodeAll (Inbound.streamOf arrived)).1
  /-- Nobody waits, and the reader has ended. -/
  idle : s.pending = [] ∧ s.reader.stage.isStopped
  /-- Every registered statement has ended as its payloads tell. -/
  statements : ∀ key c, s.channels[key]? = some c → .statement key ∈ Event.registeredIn log →
    c.EndsBy ((Docket.ofItems items).payloads (.statement key)) (Event.gainedFrom key log)
  /-- Every reply that was given a payload is decided by it. -/
  replies : ∀ key h, s.replies[key]? = some h →
    ∀ payload ∈ (Docket.ofItems items).payloads (.reply key),
      h.promise.outcome = some (h.kind.outcomeOf payload) ∧
        h.kind.outcomeOf payload ≠ .error .connectionClosed
  /-- Every reply that still waits has failed because the connection is closed. -/
  lost : ∀ key h, s.replies[key]? = some h → .reply key ∈ (Docket.ofItems items).handlers →
    h.promise.outcome = some (.error .connectionClosed)

/-- A link that was spared and is closed is through with the stream. -/
theorem IsTold.isThrough (h : s.IsTold arrived items log) (hclosed : s.isClosed) :
    s.IsThrough s.codec arrived items log := by
  have hstopped : s.reader.stage.isStopped := h.reads.stopped.trans hclosed
  have hstage : s.roster.reading = .stopped := by
    cases hreading : s.reader.stage with
    | stopped => exact hreading
    | _ =>
      rw [hreading] at hstopped
      cases hstopped
  have hall := h.reads.exhausts hclosed
  refine ⟨hall.ended, hall.all, ⟨h.tended.shut.pending hclosed, hstopped⟩, ?_, ?_,
    h.tells.lost hclosed⟩
  · intro key c hc hregistered
    obtain ⟨heard, hheard, hreports⟩ := h.tells.statements key c hc
    have hparting : s.roster.parting = [.abandoned .connectionClosed] := if_pos hclosed
    rw [hstage, show (ReaderStage.stopped.hand key).payloads = [] from rfl,
      List.append_nil] at hheard
    rw [hheard]
    refine Channel.endsBy_of_reflects (hparting ▸ hreports.registered hregistered) fun hkept => ?_
    have hrows := hreports.rows hkept
    rwa [hstage, show ReaderStage.stopped.rowOf key = [] from rfl, List.append_nil] at hrows
  · intro key reply hreply payload hpayload
    refine ⟨?_, reply.kind.outcomeOf_ne payload⟩
    refine (h.tells.given key reply hreply payload hpayload).resolve_left fun hreading => ?_
    rw [hstage] at hreading
    cases hreading

/-- Statements and single replies have come to the same on two links. A reply counts if it was
decided by a frame or still waited in the end. -/
structure SameResults (s s' : Link) (log log' : List Event) (d : Docket) : Prop where
  /-- Two statements with the same place answer the same and have handed out the same rows, unless a
  response was dropped. -/
  statements : ∀ key c c', s.channels[key]? = some c → s'.channels[key]? = some c' →
    .statement key ∈ Event.registeredIn log →
      c.answer = c'.answer ∧
        (c.isDropped = false → c'.isDropped = false →
          Event.gainedFrom key log ++ c.rows = Event.gainedFrom key log' ++ c'.rows)
  /-- Two replies with the same place have the same outcome. -/
  replies : ∀ key h h', s.replies[key]? = some h → s'.replies[key]? = some h' →
    (d.payloads (.reply key) ≠ [] ∨ .reply key ∈ d.handlers) →
      h.promise.outcome = h'.promise.outcome

variable {config : Config} {arrived' : List Inbound} {log' : List Event}

/-- A single reply that is known to the docket has its kind from there. -/
theorem IsTold.kind_eq (h : s.IsTold arrived items log) {key : Nat} {reply : ReplyHandler}
    (hreply : s.replies[key]? = some reply) {waiter : Waiter}
    (hhandler : waiter.handler = .reply key)
    (hknown : waiter ∈ (Docket.ofItems items).waiting ∨
      waiter ∈ (Docket.ofItems items).given.map (·.1)) :
    waiter.scope = some (.reply reply.kind) := by
  have hwaiter := (h.tells.known waiter hknown).2
  rw [hwaiter, hhandler]
  change (s.replies[key]?).map _ = _
  rw [hreply]
  rfl

/-- Links on which the same was dealt with have come to the same. -/
theorem IsTold.sameResults (h : s.IsTold arrived items log) (h' : s'.IsTold arrived' items log')
    (hclosed : s.isClosed) (hclosed' : s'.isClosed)
    (hregistered : Event.registeredIn log = Event.registeredIn log') :
    s.SameResults s' log log' (Docket.ofItems items) := by
  have hthrough := h.isThrough hclosed
  have hthrough' := h'.isThrough hclosed'
  constructor
  · intro key c c' hc hc' hmem
    have hends := hthrough.statements key c hc hmem
    have hends' := hthrough'.statements key c' hc' (hregistered ▸ hmem)
    exact ⟨hends.answer.trans hends'.answer.symm, fun hkept hkept' =>
      (hends.rows hkept).trans (hends'.rows hkept').symm⟩
  · intro key reply reply' hreply hreply' hconcerns
    rcases hconcerns with hgiven | hwaits
    · obtain ⟨payload, hpayload⟩ := List.exists_mem_of_ne_nil _ hgiven
      obtain ⟨entry, hentry, -⟩ := List.mem_map.mp hpayload
      obtain ⟨hmem, hhandler⟩ := List.mem_filter.mp hentry
      have hknown := List.mem_map_of_mem (f := (·.1)) hmem
      have hkind := (h.kind_eq hreply (eq_of_beq hhandler) (.inr hknown)).symm.trans
        (h'.kind_eq hreply' (eq_of_beq hhandler) (.inr hknown))
      rw [(hthrough.replies key reply hreply payload hpayload).1,
        (hthrough'.replies key reply' hreply' payload hpayload).1,
        Scope.reply.inj (Option.some.inj hkind)]
    · rw [hthrough.lost key reply hreply hwaits, hthrough'.lost key reply' hreply' hwaits]

/-! ### Receiving -/

/-- Whether an action only brings bytes, reads, takes a row, drops a response or lets time pass. -/
def Action.isReception : Action → Bool
  | .arrive _ | .next _ | .dropResponse _ | .pass _ | .turn .reader => true
  | _ => false

/-- Nobody joins the queue or leaves it while bytes are received. -/
theorem itemsAt_of_isReception (h : action.isReception) :
    s.itemsAt action = (s.framesAt action).map .read := by
  have hitems (hnobody : Event.registeredIn (s.eventsAt action) = [])
      (hstays : s.leaversAt action = []) : s.itemsAt action = (s.framesAt action).map .read := by
    rw [itemsAt, hnobody, hstays, List.map_nil, List.map_nil, List.map_nil, List.append_nil,
      List.append_nil]
  have hstays (hleavers : s.leaversAt action = (replyKeys (s.met action).pending).filter fun key =>
        !(s.act action).pending.contains (.reply key))
      (hpending : (s.act action).pending = (s.met action).pending) : s.leaversAt action = [] := by
    rw [hleavers, hpending, List.filter_eq_nil_iff]
    intro key hmem
    simpa using mem_replyKeys.mp hmem
  cases action with
  | arrive item =>
    refine hitems rfl (hstays rfl ?_)
    rw [met, joined_of_nil s rfl]
    exact congrArg Roster.pending (s.roster_arrive item)
  | next key =>
    have hnobody : Event.registeredIn (s.eventsAt (.next key)) = [] := by
      dsimp only [eventsAt]
      split <;> rfl
    refine hitems hnobody (hstays rfl ?_)
    rw [met, joined_of_nil s hnobody]
    dsimp only [act, Link.next]
    split
    · rfl
    · exact congrArg Roster.pending (s.roster_changeChannel key _)
  | dropResponse key =>
    refine hitems rfl (hstays rfl ?_)
    rw [met, joined_of_nil s rfl]
    exact congrArg Roster.pending (s.roster_changeChannel key _)
  | pass gap =>
    refine hitems rfl (hstays rfl ?_)
    rw [met, joined_of_nil s rfl]
    exact congrArg Roster.pending (s.roster_pass gap)
  | turn actor =>
    cases actor with
    | reader => exact hitems s.registeredIn_reader rfl
    | task t => cases h
  | _ => cases h

/-- While bytes are received the docket deals with nothing but frames. -/
theorem outline_itemsIn {actions : List Action} (h : ∀ action ∈ actions, action.isReception) :
    (s.itemsIn actions).map Item.outline =
      List.replicate ((s.itemsIn actions).filterMap Item.frame?).length none := by
  induction actions generalizing s with
  | nil => rfl
  | cons action actions ih =>
    have hfirst : (s.itemsAt action).map Item.outline =
        List.replicate (s.framesAt action).length none := by
      rw [itemsAt_of_isReception (h action List.mem_cons_self), List.map_map]
      exact List.map_const' ..
    rw [itemsIn, List.map_append, List.filterMap_append, List.length_append, frames_itemsAt, hfirst,
      ih fun action hmem => h action (List.mem_cons_of_mem _ hmem), List.replicate_append_replicate]

/-- Reception spares the reader. -/
theorem isSpared_of_isReception (h : action.isReception) : s.isSpared action := by
  cases action with
  | turn actor =>
    cases actor with
    | reader => rfl
    | task t => cases h
  | arrive item => rfl
  | next key => rfl
  | dropResponse key => rfl
  | pass gap => rfl
  | _ => cases h

/-- A run of reception spares the reader. -/
theorem isSparedIn_of_isReception {actions : List Action}
    (h : ∀ action ∈ actions, action.isReception) : s.isSparedIn actions := by
  induction actions generalizing s with
  | nil => rfl
  | cons action actions ih =>
    rw [isSparedIn, Bool.and_eq_true]
    exact ⟨isSpared_of_isReception (h action List.mem_cons_self),
      ih fun action hmem => h action (List.mem_cons_of_mem _ hmem)⟩

/-! ### Nothing is lost -/

/-- The frames that are read in a run, in their order. -/
def dispatchedIn (config : Config) (actions : List Action) : List Frame :=
  ((fresh config).itemsIn actions).filterMap Item.frame?

/-- The frames of the bytes that arrive in a run before the end of the stream. -/
def framesIn (config : Config) (actions : List Action) : List Frame :=
  ((fresh config).codec.decodeAll (Inbound.streamOf (arrivalsIn actions))).1

/-- As long as nobody closes a link or gives it up and no write fails, nothing is lost that is
received before the end of the stream. -/
structure LosesNothing (config : Config) : Prop where
  /-- Frames are read in the order of the stream, and none is left out. -/
  inOrder : ∀ actions, (fresh config).isSparedIn actions →
    dispatchedIn config actions <+: framesIn config actions
  /-- The link is closed by the reader after the end of the stream, when it has read the last frame
  and has nothing left in its hands. Those who still wait then go on until they are failed. -/
  closing : ∀ actions action, (fresh config).isSparedIn (actions ++ [action]) →
    (runOf config actions).isClosed = false → (runOf config (actions ++ [action])).isClosed →
      action = .turn .reader ∧ (runOf config actions).reader.stage = .reading ∧
        Inbound.hasEnded (arrivalsIn actions) ∧
          dispatchedIn config actions = framesIn config actions ∧
            ∀ handler ∈ (runOf config actions).pending,
              (runOf config actions).roster.goesOn handler ∧
                (runOf config actions).Fails (runOf config (actions ++ [action])) handler
  /-- Then everybody was told what the frames tell, and the others that the connection is closed. -/
  through : ∀ actions, (fresh config).isSparedIn actions → (runOf config actions).isClosed →
    (runOf config actions).IsThrough (fresh config).codec (arrivalsIn actions)
      ((fresh config).itemsIn actions) (journalOf config actions)
  /-- It comes to that if the reader gets its turns and callers keep taking rows or drop their
  responses. -/
  closes : ∀ course n, IsFair config course → Inbound.hasEnded (arrivalsIn (firstOf course n)) →
    ∃ m, ∀ k, m ≤ k → (after config course k).isClosed
  /-- How the stream was cut makes no difference, as long as handlers join the queue and leave it
  between the same frames. -/
  sameResults : ∀ actions actions', (fresh config).isSparedIn actions →
    (fresh config).isSparedIn actions' →
      (runOf config actions).isClosed → (runOf config actions').isClosed →
        Inbound.streamOf (arrivalsIn actions) = Inbound.streamOf (arrivalsIn actions') →
          ((fresh config).itemsIn actions).map Item.outline =
              ((fresh config).itemsIn actions').map Item.outline →
            (runOf config actions).SameResults (runOf config actions') (journalOf config actions)
              (journalOf config actions') (Docket.ofItems ((fresh config).itemsIn actions))
  /-- So once the handlers were registered, the same bytes may be received in any pieces, with rows
  taken and responses dropped meanwhile. -/
  recut : ∀ actions received received', (fresh config).isSparedIn actions →
    (∀ action ∈ received ++ received', action.isReception) →
      (runOf config (actions ++ received)).isClosed →
        (runOf config (actions ++ received')).isClosed →
          Inbound.streamOf (arrivalsIn (actions ++ received)) =
              Inbound.streamOf (arrivalsIn (actions ++ received')) →
            (runOf config (actions ++ received)).SameResults (runOf config (actions ++ received'))
              (journalOf config (actions ++ received)) (journalOf config (actions ++ received'))
              (Docket.ofItems ((fresh config).itemsIn (actions ++ received)))

/-- The codec of a run is that of its configuration. -/
theorem codec_runOf (config : Config) (actions : List Action) :
    (runOf config actions).codec = (fresh config).codec :=
  codec_of_config (config_runOf config actions)

/-- Whoever waits when everything is let go of is failed. -/
theorem fails_of_shut {stage : ReaderStage} (h : s.roster.Tended log) (hopen : s.isClosed = false)
    (hshut : s'.roster = { s.roster.shut with reading := stage }) {handler : Handler}
    (hwaits : handler ∈ s.pending) : s.Fails s' handler := by
  cases handler with
  | statement key =>
    intro c hc hlive
    obtain ⟨-, hfailed⟩ := h.shut_statement hopen hwaits hc
    have hfailure := h.sound c (List.mem_of_getElem? hc) hlive
    refine ⟨_, (congrArg (·.channels[key]?) hshut).trans hfailed, c.finish_isDone _, ?_⟩
    simp [Channel.finish, hlive, hfailure]
  | reply key =>
    intro reply hreply hnone
    obtain ⟨reply', hreply', houtcome⟩ := h.shut_reply_of_mem hopen hwaits hreply
    exact ⟨reply', (congrArg (·.replies[key]?) hshut).trans hreply', houtcome⟩

/-- The action that closes a link is a turn of the reader that has read all frames. -/
theorem IsTold.closing (h : s.IsTold arrived items log) (hspared : s.isSpared action)
    (hopen : s.isClosed = false) (hclosed : (s.act action).isClosed) :
    action = .turn .reader ∧ s.reader.stage = .reading ∧
      s.codec.Exhausts arrived (items.filterMap Item.frame?) ∧
        ∀ handler ∈ s.pending, s.Fails (s.act action) handler := by
  by_cases hreader : action = .turn .reader
  · subst hreader
    obtain ⟨⟨hstep, -, -⟩, -⟩ := h.reads.step h.tended
    obtain ⟨hreading, -, hall, hshut⟩ := hstep.closes hopen hclosed
    exact ⟨rfl, hreading, hall (h.reads.follows hopen),
      fun handler hwaits => fails_of_shut h.tended hopen hshut hwaits⟩
  · have hspares := s.spares_act h.reads.held hspared hreader
    have hsame : (s.act action).isClosed = s.isClosed := hspares.isClosed
    rw [hsame, hopen] at hclosed
    cases hclosed

/-- Spared runs that are closed have read the same frames of the same stream. -/
theorem frames_eq_of_streamOf {actions actions' : List Action}
    (hspared : (fresh config).isSparedIn actions) (hspared' : (fresh config).isSparedIn actions')
    (hclosed : (runOf config actions).isClosed) (hclosed' : (runOf config actions').isClosed)
    (hstream : Inbound.streamOf (arrivalsIn actions) = Inbound.streamOf (arrivalsIn actions')) :
    ((fresh config).itemsIn actions).filterMap Item.frame? =
      ((fresh config).itemsIn actions').filterMap Item.frame? := by
  have hframes := ((isTold_runOf hspared).isThrough hclosed).frames
  have hframes' := ((isTold_runOf hspared').isThrough hclosed').frames
  rw [codec_runOf] at hframes hframes'
  rw [hframes, hframes', hstream]

/-- Spared runs that are closed have come to the same if they agree on the stream and on the frames
between which handlers join the queue and leave it. -/
theorem sameResults_of_outline {actions actions' : List Action}
    (hspared : (fresh config).isSparedIn actions) (hspared' : (fresh config).isSparedIn actions')
    (hclosed : (runOf config actions).isClosed) (hclosed' : (runOf config actions').isClosed)
    (hstream : Inbound.streamOf (arrivalsIn actions) = Inbound.streamOf (arrivalsIn actions'))
    (houtline : ((fresh config).itemsIn actions).map Item.outline =
      ((fresh config).itemsIn actions').map Item.outline) :
    (runOf config actions).SameResults (runOf config actions') (journalOf config actions)
      (journalOf config actions') (Docket.ofItems ((fresh config).itemsIn actions)) := by
  have hframes := frames_eq_of_streamOf hspared hspared' hclosed hclosed' hstream
  have hitems := Docket.items_eq_of_outline houtline hframes
  have hregistered : Event.registeredIn (journalOf config actions) =
      Event.registeredIn (journalOf config actions') := by
    rw [journalOf, journalOf, ← joined_itemsIn, hitems, joined_itemsIn]
  have htold' := isTold_runOf hspared'
  rw [← hitems] at htold'
  exact (isTold_runOf hspared).sameResults htold' hclosed hclosed' hregistered

/-- Nothing that is received before the end of the stream is lost. -/
theorem losesNothing (config : Config) : LosesNothing config where
  inOrder actions hspared := by
    have hread := (isTold_runOf hspared).reads.frames_inOrder
    rwa [codec_runOf] at hread
  closing actions action hspared hopen hclosed := by
    rw [isSparedIn_append, Bool.and_eq_true] at hspared
    have htold := isTold_runOf hspared.1
    rw [runOf_concat] at hclosed ⊢
    obtain ⟨hreader, hreading, ⟨hended, hall⟩, hfails⟩ :=
      htold.closing (Bool.and_eq_true_iff.mp hspared.2).1 hopen hclosed
    rw [codec_runOf] at hall
    exact ⟨hreader, hreading, hended, hall, fun handler hwaits =>
      ⟨htold.tended.goesOn_of_pending hwaits, hfails handler hwaits⟩⟩
  through actions hspared hclosed := by
    have hthrough := (isTold_runOf hspared).isThrough hclosed
    rwa [codec_runOf] at hthrough
  closes course n hfair hended := by
    obtain ⟨m, -, hclosed⟩ := hfair.closes hended
    refine ⟨m, fun k hk => ?_⟩
    induction k, hk using Nat.le_induction with
    | base => exact hclosed
    | succ k hk ih =>
      rw [after_succ]
      exact isClosed_act ih _
  sameResults actions actions' hspared hspared' hclosed hclosed' hstream houtline :=
    sameResults_of_outline hspared hspared' hclosed hclosed' hstream houtline
  recut actions received received' hspared hreception hclosed hclosed' hstream := by
    have hfirst : ∀ action ∈ received, action.isReception := fun action hmem =>
      hreception action (List.mem_append_left _ hmem)
    have hsecond : ∀ action ∈ received', action.isReception := fun action hmem =>
      hreception action (List.mem_append_right _ hmem)
    have hwhole {more : List Action} (hmore : ∀ action ∈ more, action.isReception) :
        (fresh config).isSparedIn (actions ++ more) := by
      rw [isSparedIn_append, hspared, isSparedIn_of_isReception hmore]
      rfl
    refine sameResults_of_outline (hwhole hfirst) (hwhole hsecond) hclosed hclosed' hstream ?_
    have hframes := frames_eq_of_streamOf (hwhole hfirst) (hwhole hsecond) hclosed hclosed' hstream
    rw [itemsIn_append, itemsIn_append, List.filterMap_append, List.filterMap_append,
      List.append_right_inj] at hframes
    rw [itemsIn_append, itemsIn_append, List.map_append, List.map_append, outline_itemsIn hfirst,
      outline_itemsIn hsecond, hframes]

/-- Noise, the abort of a statement and a part of another frame. -/
def abortAmongNoise : List UInt8 := [1, 2] ++ Frame.envelope ⟨3, [0, 0, 0, 7, 2]⟩ ++ [170, 170]

/-- The bytes are received at once before the end of the stream. -/
def inOnePiece : List Action :=
  [.arrive (.bytes abortAmongNoise), .arrive .ended] ++ List.replicate 5 (.turn .reader)

/-- The bytes are cut in the middle of the frame, and a read fails after them. -/
def inTwoPieces : List Action :=
  [.arrive (.bytes (abortAmongNoise.take 9)), .turn .reader, .turn .reader,
    .arrive (.bytes (abortAmongNoise.drop 9)), .arrive (.failed "reset")] ++
      List.replicate 5 (.turn .reader)

/-- Two statements are submitted before bytes are received. -/
def twoSubmitted (received : List Action) : List Action :=
  submission 0 7 ++ submission 1 9 ++ received

/-- However the bytes are cut, the first statement ends by its abort, and only the second one by the
end of the connection. -/
theorem losesNothing_inTwoPieces :
    (∃ c c', (runOf (.defaults "" 0) (twoSubmitted inOnePiece)).channels[0]? = some c ∧
      (runOf (.defaults "" 0) (twoSubmitted inTwoPieces)).channels[0]? = some c' ∧
        c.answer = c'.answer ∧ c.failure ≠ some .connectionClosed) ∧
      (∃ c, (runOf (.defaults "" 0) (twoSubmitted inTwoPieces)).channels[1]? = some c ∧
        c.failure = some .connectionClosed) ∧
        ∃ m, ∀ k, m ≤ k →
          (after (.defaults "" 0) (thenRest (twoSubmitted inTwoPieces)) k).isClosed := by
  obtain ⟨-, -, through, closes, -, recut⟩ := losesNothing (.defaults "" 0)
  obtain ⟨c, hc⟩ : ∃ c, (runOf (.defaults "" 0) (twoSubmitted inOnePiece)).channels[0]? = some c :=
    ⟨_, rfl⟩
  obtain ⟨c', hc'⟩ :
      ∃ c, (runOf (.defaults "" 0) (twoSubmitted inTwoPieces)).channels[0]? = some c := ⟨_, rfl⟩
  obtain ⟨lost, hlost⟩ :
      ∃ c, (runOf (.defaults "" 0) (twoSubmitted inTwoPieces)).channels[1]? = some c := ⟨_, rfl⟩
  have hspared : (fresh (.defaults "" 0)).isSparedIn (twoSubmitted inTwoPieces) := by
    decide +kernel
  have hclosed : (runOf (.defaults "" 0) (twoSubmitted inOnePiece)).isClosed := by decide +kernel
  have hclosed' : (runOf (.defaults "" 0) (twoSubmitted inTwoPieces)).isClosed := by
    decide +kernel
  have hsame := recut (submission 0 7 ++ submission 1 9) inOnePiece inTwoPieces
    (by decide +kernel) (by decide) hclosed hclosed' (by decide +kernel)
  have hanswer := (hsame.statements 0 c c' hc hc' (by decide +kernel)).1
  have hthrough := through (twoSubmitted inTwoPieces) hspared hclosed'
  refine ⟨⟨c, c', hc, hc', hanswer, ?_⟩, ⟨lost, hlost, ?_⟩, ?_⟩
  · have hends := hthrough.statements 0 c' hc' (by decide +kernel)
    rw [show c.failure = c'.failure from congrArg (·.2.2) hanswer, ne_eq, hends.failure]
    decide +kernel
  · have hends := hthrough.statements 1 lost hlost (by decide +kernel)
    rw [hends.failure]
    decide +kernel
  · have hfair : IsFair (.defaults "" 0) (thenRest (twoSubmitted inTwoPieces)) :=
      isFair_thenRest hspared (by decide +kernel) (by decide +kernel)
    refine closes _ (twoSubmitted inTwoPieces).length hfair ?_
    rw [firstOf_thenRest]
    decide +kernel

end Link

end BeeProtocol
