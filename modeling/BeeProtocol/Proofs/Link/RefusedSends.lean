import BeeProtocol.Proofs.Link.Changes
import BeeProtocol.Proofs.Link.Handshaking
import BeeProtocol.Proofs.Link.Sparing

/-!
# Sends that are refused

A frame over the limit is refused before its call joins the line, and a frame that comes to the
writer of a closed link is refused there. Either way the call fails, and so does the handler that it
brings; everything else of the link is left as it was. No frame that waits for the writer is too
large for it, so a large frame never closes the link.
-/

namespace BeeProtocol

/-- The handler that a call brings for its purpose: one of its own if it is to hand out something.
-/
def Purpose.Brings (handler : Option Handler) : Purpose → Prop
  | plain => True
  | reply key _ _ => handler = some (.reply key)
  | statement key => handler = some (.statement key)
  | keepAlive _ _ => handler = none

/-! ### What a call gives up that is refused -/

namespace Roster

variable {r : Roster} {purpose : Purpose} {handler : Option Handler}

/-- What a handler stands for has failed because its call was given up. -/
def HasFailed (r : Roster) : Handler → Prop
  | .statement key => ∃ c, r.channels[key]? = some c ∧ c.isDone ∧ c.failure = some .connectionClosed
  | .reply key => ∃ h, r.replies[key]? = some h ∧
      h.promise.outcome = some (.error .connectionClosed)

/-- A call gives up its purpose and the handler that it brought. -/
def refuse (r : Roster) (purpose : Purpose) (handler : Option Handler) : Roster :=
  (handler.elim r r.letGo).giveUp purpose

/-- The queue stays as it is when a call is refused whose handler is not in it. -/
theorem refuse_pending (hbrings : purpose.Brings handler)
    (hunregistered : ∀ own, handler = some own → own ∉ r.pending) :
    (r.refuse purpose handler).pending = r.pending := by
  have hletGo : (handler.elim r r.letGo).pending = r.pending := by
    rcases handler with - | key | key <;> rfl
  cases purpose with
  | reply key bound use =>
    refine (congrArg (List.filter (· != Handler.reply key)) hletGo).trans ?_
    refine List.filter_eq_self.mpr fun other hmem => ?_
    rw [bne_iff_ne]
    rintro rfl
    exact hunregistered _ hbrings hmem
  | _ => exact hletGo

/-- Only the statement whose handler is given up is changed. -/
theorem refuse_channels {key : Nat} (hbrings : purpose.Brings handler)
    (hother : handler ≠ some (.statement key)) :
    (r.refuse purpose handler).channels[key]? = r.channels[key]? := by
  have hletGo : (handler.elim r r.letGo).channels[key]? = r.channels[key]? := by
    rcases handler with - | own | own
    · rfl
    · have hne : own ≠ key := fun hkey => hother (by rw [hkey])
      exact List.getElem?_modify_ne _ _ hne
    · rfl
  cases purpose with
  | statement own =>
    have hne : own ≠ key := by
      rintro rfl
      exact hother hbrings
    exact (List.getElem?_modify_ne _ _ hne).trans hletGo
  | _ => exact hletGo

/-- Other replies stay as they are when a call is refused. -/
theorem refuse_replies {key : Nat} (hother : handler ≠ some (.reply key)) :
    (r.refuse purpose handler).replies[key]? = r.replies[key]? := by
  have hletGo : (handler.elim r r.letGo).replies[key]? = r.replies[key]? := by
    rcases handler with - | own | own
    · rfl
    · rfl
    · have hne : own ≠ key := fun hkey => hother (by rw [hkey])
      exact List.getElem?_modify_ne _ _ hne
  cases purpose <;> exact hletGo

/-- What goes on until its handler is given up fails then. -/
theorem refuse_failed {own : Handler} (hlive : r.goesOn own)
    (hsound : ∀ c ∈ r.channels, c.IsSound) (purpose : Purpose) :
    (r.refuse purpose (some own)).HasFailed own := by
  cases own with
  | statement key =>
    obtain ⟨c, hc, hgoesOn⟩ := goesOn_statement_iff.mp hlive
    have hnone : c.failure = none := hsound c (List.mem_of_getElem? hc) hgoesOn
    have hfailed : (r.letGo (.statement key)).channels[key]? =
        some (c.finish (some .connectionClosed)) := by
      change (r.channels.modify key _)[key]? = _
      rw [List.getElem?_modify_eq, hc]
      rfl
    have hfailure : (c.finish (some .connectionClosed)).failure = some .connectionClosed := by
      rw [Channel.finish, if_neg (by simp [hgoesOn]), hnone]
      rfl
    cases purpose with
    | statement other =>
      change ∃ c', (List.modify _ other Channel.drop)[key]? = some c' ∧ _
      rw [List.getElem?_modify, Option.elim_some, hfailed]
      refine ⟨_, rfl, ?_⟩
      split <;> exact ⟨c.finish_isDone _, hfailure⟩
    | _ => exact ⟨_, hfailed, c.finish_isDone _, hfailure⟩
  | reply key =>
    obtain ⟨h, hreply, hundecided⟩ := goesOn_reply_iff.mp hlive
    have hfailed : (r.letGo (.reply key)).replies[key]? = some (h.abandon .connectionClosed) := by
      change (r.replies.modify key _)[key]? = _
      rw [List.getElem?_modify_eq, hreply]
      rfl
    have houtcome : (h.abandon .connectionClosed).promise.outcome =
        some (.error .connectionClosed) := by
      simp [ReplyHandler.abandon, ReplyHandler.settle, Promise.complete, hundecided]
    cases purpose <;> exact ⟨_, hfailed, houtcome⟩

/-- A handler that a call brings stands for something that goes on, and does not wait yet. -/
theorem Tenure.of_carried {own : Handler} {t : Nat} {stage : Stage} (h : r.Tenure own)
    (hstage : r.stages[t]? = some stage) (hcarries : stage.carries? = some own) :
    r.goesOn own ∧ own ∉ r.pending := by
  have hcarried : 0 < r.carried own :=
    List.countP_pos_iff.mpr ⟨stage, List.mem_of_getElem? hstage, by rw [hcarries]; simp⟩
  have hunique := h.unique
  unfold places at hunique
  refine ⟨h.live (by unfold places; omega), fun hmem => ?_⟩
  have hcount := List.count_pos_iff.mpr hmem
  omega

end Roster

namespace Link

variable {s next opened : Link} {t : Nat} {label : Option Nat} {stage : Stage} {purpose : Purpose}
  {frame : Frame} {handler : Option Handler} {reason : ClientError}

/-- A call has failed and with it the handler that it brought, and all else is as it was. -/
structure Rejects (s next : Link) (t : Nat) (label : Option Nat) (handler : Option Handler)
    (reason : ClientError) : Prop where
  /-- The call has ended. -/
  ended : next.tasks[t]? = some ⟨label, .ended, false⟩
  /-- It reports the reason. -/
  result : next.finished =
    s.finished ++ label.toList.map fun label => (label, .failed reason)
  /-- What its handler stands for has failed. -/
  failed : ∀ own, handler = some own → next.roster.HasFailed own
  /-- The phase is the same. -/
  phase : next.phase = s.phase
  /-- The owner is the same. -/
  isHeld : next.isHeld = s.isHeld
  /-- The queue is the same. -/
  pending : next.pending = s.pending
  /-- Nothing was written. -/
  writer : next.writer = s.writer
  /-- The reader is where it was, with as much to read. -/
  reading : next.reader = s.reader ∧ next.inbound = s.inbound
  /-- The others stand in line as before. -/
  line : next.line.filter (· != t) = s.line.filter (· != t)
  /-- All other calls are as they were. -/
  calls : ∀ u, u ≠ t → next.tasks[u]? = s.tasks[u]?
  /-- All other statements are as they were. -/
  statements : ∀ (key : Nat) (c : Channel), s.channels[key]? = some c →
    handler ≠ some (.statement key) → next.channels[key]? = some c
  /-- All other replies are as they were. -/
  replies : ∀ (key : Nat) (h : ReplyHandler), s.replies[key]? = some h →
    handler ≠ some (.reply key) → next.replies[key]? = some h
  /-- Whoever was about to go on still is. -/
  woken : ∀ actor ∈ s.ready, actor ≠ .task t → actor ∈ next.ready

/-- A call that takes its turn may have allocated a statement id and opened a statement or a reply
of its own. -/
def Opens (s opened : Link) (t : Nat) : Prop :=
  ∃ statements replies lastId, opened =
    { s with
      channels := s.channels ++ statements
      replies := s.replies ++ replies
      lastId := lastId
      ready := s.ready.erase (.task t) }

/-- What a call has opened is sound, and the handler that it brings goes on and does not wait yet.
-/
structure Readies (s opened : Link) (t : Nat) (handler : Option Handler) : Prop where
  /-- The link differs by what the call has opened. -/
  opens : s.Opens opened t
  /-- A failure ends its statement. -/
  sound : ∀ c ∈ opened.channels, c.IsSound
  /-- What the handler stands for goes on. -/
  live : ∀ own, handler = some own → opened.roster.goesOn own
  /-- The handler is not in the queue. -/
  unregistered : ∀ own, handler = some own → own ∉ s.pending

/-- A call that fails, on a link that is otherwise as another one except for who was woken. -/
theorem failSend_eq (hwakes : s.Wakes next) (htask : s.tasks[t]? = some ⟨label, stage, false⟩)
    (purpose : Purpose) (reason : ClientError) :
    ∃ ready, (∀ actor ∈ s.ready, actor ∈ ready) ∧ next.failSend t purpose reason =
      { s with
        channels := (s.roster.giveUp purpose).channels
        pending := (s.roster.giveUp purpose).pending
        ready := ready
        tasks := s.tasks.set t ⟨label, .ended, false⟩
        finished := s.finished ++ label.toList.map fun label => (label, .failed reason) } := by
  obtain ⟨ready, rfl, hkept⟩ := hwakes
  obtain ⟨ready', hgivenUp, hkept'⟩ := wakes_giveUp { s with ready := ready } purpose
  refine ⟨ready', fun actor hmem => hkept' actor (hkept actor hmem), ?_⟩
  have htask' : (giveUp { s with ready := ready } purpose).tasks[t]? =
      some ⟨label, stage, false⟩ := by
    rw [hgivenUp]
    exact htask
  rw [failSend, conclude_eq _ htask', hgivenUp]
  rfl

/-- A call that fails with the handler that it brought leaves all else as it was. -/
theorem rejects_failSend (hreadies : s.Readies opened t handler)
    (htask : s.tasks[t]? = some ⟨label, stage, false⟩) (hbrings : purpose.Brings handler)
    {line : List Nat} (hline : line.filter (· != t) = s.line.filter (· != t)) {left : Link}
    (hleft : Wakes
      { opened with
        channels := (handler.elim opened.roster opened.roster.letGo).channels
        replies := (handler.elim opened.roster opened.roster.letGo).replies
        line := line } left) :
    s.Rejects (left.failSend t purpose reason) t label handler reason := by
  obtain ⟨⟨added, asked, lastId, rfl⟩, hsound, hlive, hunregistered⟩ := hreadies
  obtain ⟨ready, hkept, hnext⟩ := failSend_eq hleft htask purpose reason
  have hkey := (List.getElem?_eq_some_iff.mp htask).1
  -- Channels, replies and the queue are those of the roster on which everything is given up.
  let r : Roster :=
    { s.roster with
      channels := s.channels ++ added
      replies := s.replies ++ asked }
  have hgiven : ((left.failSend t purpose reason).roster.channels,
      (left.failSend t purpose reason).roster.replies,
      (left.failSend t purpose reason).roster.pending) =
        ((r.refuse purpose handler).channels, (r.refuse purpose handler).replies,
          (r.refuse purpose handler).pending) := by
    rw [hnext]
    rcases handler with - | own | own <;> cases purpose <;> rfl
  obtain ⟨hchannels, hgiven⟩ := Prod.mk.inj hgiven
  obtain ⟨hreplies, hpending⟩ := Prod.mk.inj hgiven
  refine
    { ended := ?_, result := ?_, failed := ?_, phase := ?_, isHeld := ?_, pending := ?_
      writer := ?_, reading := ?_, line := ?_, calls := ?_, statements := ?_, replies := ?_
      woken := ?_ }
  · rw [hnext]
    exact List.getElem?_set_self hkey
  · rw [hnext]
  · rintro own rfl
    have hfailed := Roster.refuse_failed (r := r) (hlive own rfl) hsound purpose
    cases own with
    | statement key =>
      obtain ⟨c, hc, hdone⟩ := hfailed
      exact ⟨c, (congrArg (·[key]?) hchannels).trans hc, hdone⟩
    | reply key =>
      obtain ⟨h, hreply, hrejected⟩ := hfailed
      exact ⟨h, (congrArg (·[key]?) hreplies).trans hreply, hrejected⟩
  · rw [hnext]
  · rw [hnext]
  · exact hpending.trans (Roster.refuse_pending (r := r) hbrings hunregistered)
  · rw [hnext]
  · rw [hnext]
    exact ⟨rfl, rfl⟩
  · rw [hnext]
    exact hline
  · intro u hne
    rw [hnext]
    exact List.getElem?_set_ne (Ne.symm hne)
  · intro key c hc hother
    have hkept : (s.channels ++ added)[key]? = some c := by
      rw [List.getElem?_append_left (List.getElem?_eq_some_iff.mp hc).1, hc]
    exact (congrArg (·[key]?) hchannels).trans
      ((Roster.refuse_channels (r := r) hbrings hother).trans hkept)
  · intro key h hreply hother
    have hkept : (s.replies ++ asked)[key]? = some h := by
      rw [List.getElem?_append_left (List.getElem?_eq_some_iff.mp hreply).1, hreply]
    exact (congrArg (·[key]?) hreplies).trans
      ((Roster.refuse_replies (r := r) hother).trans hkept)
  · intro actor hmem hother
    rw [hnext]
    exact hkept actor ((List.mem_erase_of_ne hother).mpr hmem)

/-! ### A frame over the limit -/

/-- A call whose frame is too large fails and lets go of its handler. -/
theorem beginSend_of_oversized (hsize : s.codec.limit < frame.payload.length) :
    s.beginSend t purpose frame handler =
      ((handler.elim s s.letGo).failSend t purpose
        (.decode (ProtocolError.frameTooLarge frame.payload.length s.codec.limit).message),
        false) := if_pos hsize

/-- A call that opens nothing brings at most a handler that has not been registered. -/
theorem readies_woken (hsound : ∀ c ∈ s.channels, c.IsSound)
    (hcarried : ∀ own, handler = some own → s.roster.goesOn own ∧ own ∉ s.pending) :
    s.Readies (s.woken t) t handler where
  opens := ⟨[], [], s.lastId, by simp [woken]⟩
  sound := hsound
  live own hown := (hcarried own hown).1
  unregistered own hown := (hcarried own hown).2

/-- A call that wants a reply opens one and brings its handler. -/
theorem readies_addReply (hsound : ∀ c ∈ s.channels, c.IsSound) (kind : MessageKind)
    (hnew : .reply s.replies.length ∉ s.pending) :
    s.Readies ((s.woken t).addReply kind) t (some (.reply s.replies.length)) where
  opens := ⟨[], [.ofKind kind], s.lastId, by simp [woken, addReply]⟩
  sound := hsound
  live own hown := by
    obtain rfl := Option.some.inj hown
    exact (Roster.goesOn_openReply s.roster kind _).trans (by simp [roster])
  unregistered own hown := by
    obtain rfl := Option.some.inj hown
    exact hnew

/-- A call that submits a statement opens its channel and brings its handler. -/
theorem readies_addChannel (hsound : ∀ c ∈ s.channels, c.IsSound)
    (hnew : .statement s.channels.length ∉ s.pending) (lastId : Nat) (id : UInt32) (capacity : Nat)
    (bound : Duration) :
    s.Readies (({ s.woken t with lastId := lastId } : Link).addChannel (.fresh id capacity bound)) t
      (some (.statement s.channels.length)) where
  opens := ⟨[.fresh id capacity bound], [], lastId, by simp [woken, addChannel]⟩
  sound c hmem := by
    rcases List.mem_append.mp hmem with hmem | hmem
    · exact hsound c hmem
    · rw [List.mem_singleton.mp hmem]
      exact fun _ => rfl
  live own hown := by
    obtain rfl := Option.some.inj hown
    exact (Roster.goesOn_openStatement s.roster id capacity bound _).trans (by simp [roster])
  unregistered own hown := by
    obtain rfl := Option.some.inj hown
    exact hnew

/-- A call that writes comes to the check of its frame with all that it has opened until then. -/
theorem exists_readies {call : LinkCall} (hwrites : s.Writes call purpose frame handler)
    (htask : s.tasks[t]? = some ⟨label, .called call, false⟩)
    (hsound : ∀ c ∈ s.channels, c.IsSound)
    (htenure : ∀ own, handler = some own → s.roster.Tenure own) :
    ∃ opened, s.Readies opened t handler ∧
      (s.woken t).beginCall t call = opened.beginSend t purpose frame handler := by
  -- What is still to be opened cannot be on the queue.
  have hnew (own : Handler) (hown : handler = some own) (hnone : s.roster.goesOn own = false) :
      own ∉ s.pending := fun hmem => by
    have hlive := (htenure own hown).goesOn_of_mem hmem
    rw [hnone] at hlive
    cases hlive
  have hreply (hown : handler = some (.reply s.replies.length)) :=
    hnew _ hown (by simp [Roster.goesOn, roster])
  have hstatement (hown : handler = some (.statement s.channels.length)) :=
    hnew _ hown (by simp [Roster.goesOn, roster])
  cases hwrites with
  | send =>
    refine ⟨s.woken t, readies_woken hsound fun own hown => ?_, rfl⟩
    have hcarries : (Stage.called (.send frame handler)).carries? = some own := hown
    exact (htenure own hown).of_carried (stage_of_task htask) hcarries
  | @request message _ kind bound hframe =>
    refine ⟨_, readies_addReply hsound kind (hreply rfl), ?_⟩
    dsimp only [beginCall, beginRequest]
    rw [hframe]
    rfl
  | @handshake application url _ bound hbound hframe =>
    refine ⟨_, readies_addReply hsound .connectResponse (hreply rfl), ?_⟩
    unfold beginCall
    rw [show (s.woken t).config.handshakeTimeout = .ok bound from hbound]
    dsimp only [beginHandshake, beginRequest]
    rw [hframe]
    rfl
  | submit id script seconds hframe =>
    refine ⟨_, readies_addChannel hsound (hstatement rfl) s.lastId id.toUInt32 s.config.rowCapacity
      (if seconds = 0 then s.config.statementTimeout else .ofSeconds seconds.toUInt64), ?_⟩
    dsimp only [beginCall, beginSubmit]
    rw [hframe]
    rfl
  | execute script hframe =>
    refine ⟨_, readies_addChannel hsound (hstatement rfl) s.nextId.2.lastId s.nextId.1.toUInt32
      s.config.rowCapacity (if s.config.statementTimeoutSeconds = 0 then s.config.statementTimeout
        else .ofSeconds s.config.statementTimeoutSeconds.toUInt64), ?_⟩
    have hfirst : (s.woken t).beginCall t (.execute script) =
        (s.woken t).nextId.2.beginSubmit t s.nextId.1 script s.config.statementTimeoutSeconds := rfl
    rw [hfirst]
    dsimp only [beginSubmit]
    rw [hframe]
    rfl
  | ping => exact ⟨s.woken t, readies_woken hsound (fun own hown => by cases hown), rfl⟩

/-- A call that writes brings the handler of its own purpose. -/
theorem Writes.brings {call : LinkCall} (h : s.Writes call purpose frame handler) :
    purpose.Brings handler := by
  cases h with
  | send => exact True.intro
  | ping => exact True.intro
  | _ => exact rfl

/-- A turn after which the call sleeps is all that is done. -/
theorem turned_of_taskTurn (hturn : (s.woken t).taskTurn t = (next, false)) :
    s.turned (.task t) = next := by
  unfold turned
  dsimp only
  rw [show ({ s with ready := s.ready.erase (.task t) } : Link).taskTurn t = _ from hturn]
  rfl

/-- A call whose frame is over the limit fails in its first turn. -/
theorem rejects_of_oversized {call : LinkCall} (hwrites : s.Writes call purpose frame handler)
    (htask : s.tasks[t]? = some ⟨label, .called call, false⟩)
    (hsound : ∀ c ∈ s.channels, c.IsSound)
    (htenure : ∀ own, handler = some own → s.roster.Tenure own)
    (hsize : s.codec.limit < frame.payload.length) :
    s.Rejects (s.turned (.task t)) t label handler
      (.decode (ProtocolError.frameTooLarge frame.payload.length s.codec.limit).message) := by
  obtain ⟨opened, hreadies, hbegins⟩ := exists_readies hwrites htask hsound htenure
  obtain ⟨added, asked, lastId, hopened⟩ := hreadies.opens
  have hcodec : opened.codec = s.codec := by rw [hopened]; rfl
  have hline : opened.line = s.line := by rw [hopened]
  have hturn := taskTurn_called htask
  rw [hbegins, beginSend_of_oversized (by rwa [hcodec]), hcodec] at hturn
  rw [turned_of_taskTurn hturn]
  refine rejects_failSend hreadies htask hwrites.brings (congrArg (List.filter (· != t)) hline) ?_
  cases handler with
  | none => exact .refl _
  | some own => exact wakes_letGo opened own

/-! ### A frame that comes to the writer of a closed link -/

/-- A call that gets the writer of a closed link fails. -/
theorem rejects_of_isClosed (hclosed : s.isClosed)
    (htask : s.tasks[t]? = some ⟨label, .sending purpose (.inLine frame handler), false⟩)
    (hwriter : s.hasWriter t) (hbrings : purpose.Brings handler)
    (hsound : ∀ c ∈ s.channels, c.IsSound)
    (htenure : ∀ own, handler = some own → s.roster.Tenure own) :
    s.Rejects (s.turned (.task t)) t label handler .connectionClosed := by
  let refused : Link := handler.elim (s.woken t) (s.woken t).letGo
  have hregister : handler.elim (s.woken t) (s.woken t).register = refused := by
    cases handler with
    | none => rfl
    | some own => exact (s.woken t).register_of_isClosed hclosed own
  have hturn := taskTurn_sending htask
  have hsend : (s.woken t).sendTurn t purpose (.inLine frame handler) =
      ((refused.leaveLine t).failSend t purpose .connectionClosed, false) := by
    have hwriter' : (s.woken t).hasWriter t := hwriter
    dsimp only [sendTurn]
    rw [if_pos hwriter', enter, hregister]
    exact if_pos hclosed
  rw [hsend] at hturn
  rw [turned_of_taskTurn hturn]
  have hreadies : s.Readies (s.woken t) t handler := readies_woken hsound fun own hown =>
    (htenure own hown).of_carried (stage_of_task htask) hown
  have hline : (s.line.filter (· != t)).filter (· != t) = s.line.filter (· != t) := by
    simp [List.filter_filter]
  refine rejects_failSend hreadies htask hbrings hline ?_
  have hletGo : Wakes
      { s.woken t with
        channels := (handler.elim (s.woken t).roster (s.woken t).roster.letGo).channels
        replies := (handler.elim (s.woken t).roster (s.woken t).roster.letGo).replies }
      refused := by
    cases handler with
    | none => exact .refl _
    | some own => exact wakes_letGo (s.woken t) own
  obtain ⟨ready, hrefused, hkept⟩ := hletGo
  have hleft := refused.wakes_leaveLine t
  clear_value refused
  subst hrefused
  exact Wakes.trans ⟨ready, rfl, hkept⟩ hleft

/-! ### What holds in every run -/

/-- Every call in line brings the handler that belongs to its purpose. -/
def BringOwn (s : Link) : Prop :=
  ∀ purpose frame handler, .sending purpose (.inLine frame handler) ∈ s.roster.stages →
    purpose.Brings handler

/-- After every action all calls bring handlers of their own purpose. -/
theorem BringOwn.act (h : s.BringOwn) (action : Action) : (s.act action).BringOwn := by
  intro purpose frame handler hmem
  obtain ⟨u, hnew⟩ := List.mem_iff_getElem?.mp hmem
  cases s.comes_act hnew with
  | begun hnone hbegins => cases isFirst_of_begins s hbegins
  | kept hstage => exact h purpose frame handler (List.mem_of_getElem? hstage)
  | dropped hended => cases hended
  | stepped haction htask hcourse =>
    cases hcourse with
    | wait => exact h purpose frame handler (List.mem_of_getElem? (stage_of_task htask))
    | queue hwrites hsize => exact hwrites.brings
    | nextPing => rfl

/-- In every run all calls bring handlers of their own purpose. -/
theorem bringOwn_runOf (config : Config) (actions : List Action) :
    (runOf config actions).BringOwn := by
  induction actions using List.reverseRecOn with
  | nil => exact fun _ _ _ hmem => by cases hmem
  | append_singleton actions action ih =>
    rw [runOf_concat]
    exact ih.act action

/-- Whether a call is started with the handler of a reply that another call may have. -/
def Action.sharesReply (key : Nat) : Action → Bool
  | .call _ (.send _ (some (.reply other))) _ => other == key
  | _ => false

/-- A handler is shared in a run if it is that of a reply with which another call is started. -/
def IsShared (actions : List Action) : Handler → Prop
  | .statement _ => False
  | .reply key => ∃ action ∈ actions, action.sharesReply key

/-- The handler of a reply keeps its tenure as long as it is not shared. -/
theorem tenure_act {key : Nat} (h : s.roster.Tenure (.reply key)) {action : Action}
    (hunshared : action.sharesReply key = false) :
    (s.act action).roster.Tenure (.reply key) := by
  cases hbrings : action.bringsReply with
  | false =>
    exact (s.act_moves action).tenure
      (fun other hmem => absurd hmem (offered_notMem_eventsAt hbrings other)) h
  | true =>
    cases action with
    | call label call hplain =>
      cases call with
      | send frame handler =>
        rcases handler with - | other | other
        · cases hbrings
        · cases hbrings
        · have hother : other ≠ key := by simpa [Action.sharesReply] using hunshared
          have hroster : (s.act (.call label (.send frame (some (.reply other))) hplain)).roster =
              { s.roster with
                stages := s.roster.stages ++ [.called (.send frame (some (.reply other)))] } :=
            s.roster_addTask (some label) _
          rw [hroster]
          have hcarried := Roster.carried_append (r := s.roster) s.roster.stages
            (.called (.send frame (some (.reply other)))) (.reply key)
          have hnot : (Stage.called (.send frame (some (.reply other)))).carries? ≠
              some (.reply key) := by
            simpa [Stage.carries?] using hother
          rw [beq_false_of_ne hnot] at hcarried
          exact h.of_stays hcarried rfl rfl rfl
      | _ => cases hbrings
    | reply label frame kind =>
      have hroster : (s.act (.reply label frame kind)).roster =
          { s.roster with
            replies := s.replies ++ [.ofKind kind]
            stages := s.roster.stages ++
              [.called (.send frame (some (.reply s.replies.length)))] } :=
        (s.addReply kind).roster_addTask (some label) _
      rw [hroster]
      refine h.opened (.reply s.replies.length) (by simp [Roster.goesOn, roster])
        (Roster.carried_append (r := s.roster) s.roster.stages _ _) rfl rfl ?_
      exact Roster.goesOn_openReply s.roster kind (.reply key)
    | _ => cases hbrings

/-- A handler that is not shared between calls has tenure in every run. -/
theorem tenure_of_unshared (config : Config) (actions : List Action) {own : Handler}
    (hunshared : ¬ IsShared actions own) : (runOf config actions).roster.Tenure own := by
  cases own with
  | statement key => exact (inOrder_runOf config actions).tenure key
  | reply key =>
    induction actions using List.reverseRecOn with
    | nil => exact Roster.tenure_fresh config _
    | append_singleton actions action ih =>
      rw [runOf_concat]
      refine tenure_act (ih fun hshared => hunshared ?_) ?_
      · obtain ⟨earlier, hmem, hshares⟩ := hshared
        exact ⟨earlier, List.mem_append_left _ hmem, hshares⟩
      · by_contra hshares
        exact hunshared ⟨action, by simp, by simpa using hshares⟩

/-! ### All refusals -/

/-- Whether a call of the owner other than this one uses the link. -/
def IsUsedBeside (s : Link) (t : Nat) : Prop :=
  ∃ u task, u ≠ t ∧ s.tasks[u]? = some task ∧ task.stage.usesWriter ∧ task.stage.isPinging = false

/-- A call fails in its turn and leaves all else as it was. If the link has been given up and nobody
else uses it, then it is not used any more after that. -/
structure FailsAlone (s : Link) (t : Nat) (label : Option Nat) (handler : Option Handler)
    (reason : ClientError) : Prop where
  /-- The call is rejected in its turn. -/
  rejects : s.Rejects (s.turned (.task t)) t label handler reason
  /-- After the turn a link that nobody uses is released. -/
  released : s.act (.turn (.task t)) = (s.turned (.task t)).releaseUnused
  /-- Nothing is released if the link has its owner or is used by others. -/
  whole : s.isHeld ∨ s.IsUsedBeside t → s.act (.turn (.task t)) = s.turned (.task t)

/-- A call that is rejected in its turn fails alone. -/
theorem FailsAlone.of_rejects (h : s.Rejects (s.turned (.task t)) t label handler reason) :
    s.FailsAlone t label handler reason where
  rejects := h
  released := s.turnOf_eq_release (.task t)
  whole huses := by
    refine (s.turnOf_eq_release (.task t)).trans ?_
    rcases huses with hheld | ⟨u, task, hother, htask, huses, hping⟩
    · exact releaseUnused_of_isHeld _ (h.isHeld.trans hheld)
    · refine releaseUnused_of_isInUse (List.any_eq_true.mpr ⟨task, ?_, by simp [huses, hping]⟩)
      exact List.mem_of_getElem? ((h.calls u hother).trans htask)

/-- Sends that cannot go through fail for themselves; `IsShared` tells of which handlers that cannot
be said because another call may have them too. -/
structure RefusesSends (s : Link) (IsShared : Handler → Prop) : Prop where
  /-- The limit for a payload is the configured one, as far as it is a number of 32 bits, for the
  check of a call as well as for the writer. -/
  limit : s.codec.limit = min s.config.frameLimit (2 ^ 32 - 1) ∧
    Codec.withLimit s.codec.limit = s.codec
  /-- What passes the check of a call is never too large for the writer. -/
  passes : ∀ frame : Frame, frame.payload.length ≤ s.codec.limit →
    s.codec.encode frame = .ok frame.envelope
  /-- A call whose frame is too large fails before it stands in line, whatever it is for. -/
  oversized : ∀ t label call purpose frame handler,
    s.tasks[t]? = some ⟨label, .called call, false⟩ → s.Writes call purpose frame handler →
      (∀ own, handler = some own → ¬ IsShared own) → s.codec.limit < frame.payload.length →
        s.FailsAlone t label handler
          (.decode (ProtocolError.frameTooLarge frame.payload.length s.codec.limit).message)
  /-- A call whose frame is not too large stands in line after that. -/
  queues : ∀ t label call purpose frame handler,
    s.tasks[t]? = some ⟨label, .called call, false⟩ → s.Writes call purpose frame handler →
      frame.payload.length ≤ s.codec.limit → (s.act (.turn (.task t))).roster.stages[t]? =
        some (.sending purpose (.inLine frame handler))
  /-- If it gets the writer of a closed link, it fails. -/
  closed : ∀ t label purpose frame handler, s.isClosed →
    s.tasks[t]? = some ⟨label, .sending purpose (.inLine frame handler), false⟩ → s.hasWriter t →
      (∀ own, handler = some own → ¬ IsShared own) →
        s.FailsAlone t label handler .connectionClosed
  /-- Every frame that stands in line or has the writer has passed the check. -/
  waiting : ∀ stage ∈ s.roster.stages, ∀ frame, stage.frame? = some frame →
    frame.payload.length ≤ s.codec.limit

/-- In every run the frames in the line fit. -/
theorem isFit_runOf (config : Config) (actions : List Action) : (runOf config actions).IsFit := by
  induction actions using List.reverseRecOn with
  | nil => exact fun _ hmem => by cases hmem
  | append_singleton actions action ih =>
    rw [runOf_concat]
    exact ih.act action

/-- In every run a send that is refused, for the size of its frame or because the link is closed,
fails for itself and with its handler, and no frame comes to the writer that is too large for it. -/
theorem refusesSends_runOf (config : Config) (actions : List Action) :
    (runOf config actions).RefusesSends (IsShared actions) := by
  have horder := inOrder_runOf config actions
  have hown := bringOwn_runOf config actions
  have hfit := isFit_runOf config actions
  have htenure (handler : Option Handler) (hunshared : ∀ own, handler = some own →
      ¬ IsShared actions own) (own : Handler) (hhandler : handler = some own) :
      (runOf config actions).roster.Tenure own :=
    tenure_of_unshared config actions (hunshared own hhandler)
  generalize runOf config actions = s at horder hown hfit htenure ⊢
  refine
    { limit := ⟨rfl, ?_⟩
      passes := fun frame hsize => if_pos hsize
      oversized := ?_
      queues := fun t label call purpose frame handler => queued_of_writes
      closed := ?_
      waiting := hfit }
  · change Codec.withLimit (min s.config.frameLimit (UInt32.size - 1)) =
      Codec.withLimit s.config.frameLimit
    simp [Codec.withLimit]
  · intro t label call purpose frame handler htask hwrites hunshared hsize
    exact .of_rejects
      (rejects_of_oversized hwrites htask horder.sound (htenure handler hunshared) hsize)
  · intro t label purpose frame handler hclosed htask hwriter hunshared
    have hstage : s.roster.stages[t]? = some (.sending purpose (.inLine frame handler)) :=
      stage_of_task htask
    exact .of_rejects
      (rejects_of_isClosed hclosed htask hwriter
        (hown purpose frame handler (List.mem_of_getElem? hstage)) horder.sound
        (htenure handler hunshared))

/-- A ping on a link that takes no payloads, behind a statement whose frame has none. -/
example :
    let s := runOf { Config.defaults "localhost" 6142 with frameLimit := 0 }
      (submission 0 7 ++ [.call 1 .ping rfl, .turn (.task 1)])
    s.finished.map (·.1) = [0, 1] ∧ s.pending = [.statement 0] ∧ s.phase = .connecting ∧
      s.writer.bytes = Frame.envelope ⟨2, []⟩ := by
  decide +kernel

end Link

end BeeProtocol
