import BeeProtocol.Proofs.Link.Courses
import BeeProtocol.Proofs.Link.Exchanges
import BeeProtocol.Proofs.Link.Ownership
import BeeProtocol.Proofs.Link.PendingQueue

/-!
# Asking for a connect response

As long as only calls that write a connect request wait for connect responses, such a call has asked
for its response from when its frame is in the out-buffer, and not before.
-/

namespace BeeProtocol

/-- The frame of a message has the type of its kind. -/
theorem Message.type_of_toFrame {message : Message} {frame : Frame}
    (h : message.toFrame = .ok frame) : frame.type = message.kind.frameType := by
  unfold toFrame at h
  cases hencode : message.encode with
  | error reason => simp [hencode, Except.map] at h
  | ok payload =>
    simp only [hencode, Except.map, Except.ok.injEq] at h
    rw [← h]

namespace Stage

/-- The single reply that a call at this stage waits for, with the frame that it has not written
yet. -/
def unsent? : Stage → Option (Nat × Frame)
  | sending (.reply key _ _) (.inLine frame _) => some (key, frame)
  | sending (.reply key _ _) (.holding frame) => some (key, frame)
  | _ => none

/-- The single reply that a call at this stage waits for whose frame is written. -/
def sent? : Stage → Option Nat
  | sending (.reply key _ _) .flushing => some key
  | replying key _ _ _ => some key
  | _ => none

/-- A call whose request is not sent yet asks for the reply. -/
theorem asks_of_unsent {stage : Stage} {key : Nat} {frame : Frame}
    (h : stage.unsent? = some (key, frame)) : stage.asks? = some key := by
  cases stage with
  | sending purpose step => cases purpose <;> cases step <;> cases h <;> rfl
  | _ => cases h

/-- A call whose request is sent asks for the reply. -/
theorem asks_of_sent {stage : Stage} {key : Nat} (h : stage.sent? = some key) :
    stage.asks? = some key := by
  cases stage with
  | sending purpose step =>
    cases purpose with
    | reply other bound use =>
      cases step with
      | flushing => exact h
      | _ => cases h
    | _ => cases h
  | replying other bound use deadline => exact h
  | _ => cases h

/-- Who has registered the handler of a reply for himself has written the frame or is writing. -/
theorem sent_of_claims {stage : Stage} {key : Nat} (h : stage.claims? = some key) :
    stage.sent? = some key ∨
      ∃ bound use frame, stage = sending (.reply key bound use) (.holding frame) := by
  cases stage with
  | sending purpose step =>
    cases purpose with
    | reply other bound use =>
      cases step with
      | inLine frame handler => cases h
      | holding frame =>
        obtain rfl := Option.some.inj h
        exact .inr ⟨bound, use, frame, rfl⟩
      | flushing => exact .inl h
    | _ => cases step <;> cases h
  | replying other bound use deadline => exact .inl h
  | _ => cases h

end Stage

namespace Link

variable {s : Link} {x : Exchanges} {action : Action}

/-! ### Replies of a kind -/

/-- Whether a single reply is a connect response. -/
def isConnect (s : Link) (key : Nat) : Bool :=
  (s.replies[key]?).any (·.kind == .connectResponse)

/-- There is no such reply, or it is a connect response. -/
def MayConnect (s : Link) (key : Nat) : Prop :=
  ∀ h, s.replies[key]? = some h → h.kind = .connectResponse

/-- A connect reply is one that takes connect responses. -/
theorem isConnect_iff {key : Nat} :
    s.isConnect key ↔ ∃ h, s.replies[key]? = some h ∧ h.kind = .connectResponse := by
  simp [isConnect, Option.any_eq_true]

/-- A connect reply takes connect responses if it is there. -/
theorem mayConnect_of_isConnect {key : Nat} (h : s.isConnect key) : s.MayConnect key := by
  obtain ⟨reply, hreply, hkind⟩ := isConnect_iff.mp h
  intro other hother
  rw [hreply, Option.some.injEq] at hother
  rw [← hother, hkind]

/-- What a single reply is does not change. -/
theorem kind_act {key : Nat} {h : ReplyHandler} (hreply : s.replies[key]? = some h)
    (action : Action) : ∃ h', (s.act action).replies[key]? = some h' ∧ h'.kind = h.kind := by
  have hreply : s.roster.replies[key]? = some h := hreply
  obtain ⟨h', hreply', hcomes⟩ := (s.act_moves action).settles hreply
  exact ⟨h', hreply', hcomes.kind⟩

/-- What takes connect responses after an action took them before, if it was there. -/
theorem mayConnect_of_act {key : Nat} (h : (s.act action).MayConnect key) : s.MayConnect key := by
  intro reply hreply
  obtain ⟨reply', hreply', hkind⟩ := kind_act hreply action
  rw [← hkind, h reply' hreply']

/-- What becomes a connect response is one already, if it is known. -/
theorem isConnect_of_act {key : Nat} (hknown : key < s.replies.length)
    (h : (s.act action).isConnect key) : s.isConnect key :=
  isConnect_iff.mpr ⟨_, List.getElem?_eq_getElem hknown,
    mayConnect_of_act (mayConnect_of_isConnect h) _ (List.getElem?_eq_getElem hknown)⟩

/-! ### What a connect response may be waited for -/

/-- Whether an action lets nobody wait for a connect response but a call that writes a connect
request. -/
def AsksForConnect (s : Link) : Action → Bool
  | .call _ (.request message kind _) _ =>
    kind != .connectResponse || message.kind == .connectRequest
  | .call _ (.send _ (some (.reply key))) _ => (s.replies[key]?).any (·.kind != .connectResponse)
  | .reply _ _ kind => kind != .connectResponse
  | _ => true

/-- Nobody brings the handler of a connect response that others wait for. -/
theorem not_mayConnect_of_offered (hasks : s.AsksForConnect action) {key : Nat}
    (hoffered : .offered key ∈ s.eventsAt action) : ¬ (s.act action).MayConnect key := by
  intro hmay
  cases action with
  | call label call hplain =>
    cases call with
    | send frame handler =>
      rcases handler with - | other | other
      · cases hoffered
      · cases hoffered
      · obtain rfl : key = other := by simpa [eventsAt] using hoffered
        obtain ⟨reply, hreply, hkind⟩ := (Option.any_eq_true ..).mp hasks
        exact absurd (mayConnect_of_act hmay reply hreply) (by simpa using hkind)
    | _ => cases hoffered
  | reply label frame kind =>
    obtain rfl : key = s.replies.length := by simpa [eventsAt] using hoffered
    have hnew : (s.act (.reply label frame kind)).replies[s.replies.length]? =
        some (ReplyHandler.ofKind kind) := by
      have hreplies : (s.act (.reply label frame kind)).roster.replies =
          s.replies ++ [ReplyHandler.ofKind kind] := by
        dsimp only [act, start]
        rw [roster_addTask]
        rfl
      change (s.act (.reply label frame kind)).roster.replies[s.replies.length]? = _
      rw [hreplies]
      exact List.getElem?_concat_length
    have hkind : kind = .connectResponse := hmay _ hnew
    simp [AsksForConnect, hkind] at hasks
  | _ => exact offered_notMem_eventsAt rfl key hoffered

/-! ### Turns -/

/-- What becomes of a reply in the rest of a turn. -/
theorem settles_turn {t key : Nat} {after : Link × Bool} {reply : ReplyHandler}
    (hturn : ({ s with ready := s.ready.erase (.task t) } : Link).taskTurn t = after)
    (hreply : after.1.replies[key]? = some reply) :
    (s.act (.turn (.task t))).roster.Settles key reply := by
  dsimp only [act, turnOf]
  rw [hturn]
  split
  · exact (releaseUnused_moves { after.1 with ready := _ }).settles hreply
  · exact after.1.releaseUnused_moves.settles hreply

/-- A call whose request is not too large opens a reply and stands in line with its handler. -/
theorem beginRequest_of_le (s : Link) (t : Nat) {message : Message} {frame : Frame}
    (kind : MessageKind) (bound : Duration) (use : ReplyUse) (hframe : message.toFrame = .ok frame)
    (hsize : frame.payload.length ≤ s.codec.limit) :
    s.beginRequest t message kind bound use =
      (((s.addReply kind).joinLine t).setStage t
        (.sending (.reply s.replies.length bound use)
          (.inLine frame (some (.reply s.replies.length)))), true) := by
  have hfits : ¬ (s.addReply kind).codec.limit < frame.payload.length := Nat.not_lt.mpr hsize
  unfold beginRequest
  rw [hframe]
  exact if_neg hfits

/-- The reply that is opened is of the kind that is asked for. -/
theorem kind_of_beginRequest {t : Nat} {message : Message} {kind : MessageKind} {bound : Duration}
    {use : ReplyUse} {frame : Frame} (hframe : message.toFrame = .ok frame)
    (hsize : frame.payload.length ≤ s.codec.limit)
    (hturn : ({ s with ready := s.ready.erase (.task t) } : Link).taskTurn t =
      ({ s with ready := s.ready.erase (.task t) } : Link).beginRequest t message kind bound use) :
    ∃ h, (s.act (.turn (.task t))).replies[s.replies.length]? = some h ∧ h.kind = kind := by
  let woken : Link := { s with ready := s.ready.erase (.task t) }
  have hbegun := hturn.trans (woken.beginRequest_of_le t kind bound use hframe hsize)
  have hnew : (woken.addReply kind).replies[s.replies.length]? = some (.ofKind kind) :=
    List.getElem?_concat_length
  obtain ⟨h, hreply, hcomes⟩ := settles_turn hbegun hnew
  exact ⟨h, hreply, hcomes.kind⟩

/-- A request opens the reply that it waits for. -/
theorem kind_of_request {t : Nat} {label : Option Nat} {message : Message} {kind : MessageKind}
    {bound : Duration} {frame : Frame}
    (htask : s.tasks[t]? = some ⟨label, .called (.request message kind bound), false⟩)
    (hframe : message.toFrame = .ok frame) (hsize : frame.payload.length ≤ s.codec.limit) :
    ∃ h, (s.act (.turn (.task t))).replies[s.replies.length]? = some h ∧ h.kind = kind := by
  let woken : Link := { s with ready := s.ready.erase (.task t) }
  have hturn : woken.taskTurn t = woken.beginRequest t message kind bound .request := by
    unfold taskTurn
    rw [show woken.tasks[t]? = some ⟨label, .called (.request message kind bound), false⟩
      from htask]
    rfl
  exact kind_of_beginRequest hframe hsize hturn

/-- A call puts its frame into the out-buffer. -/
structure Encodes (s : Link) (t : Nat) (purpose : Purpose) (frame : Frame) : Prop where
  /-- The call has the writer. -/
  task : ∃ label, s.tasks[t]? = some ⟨label, .sending purpose (.holding frame), false⟩
  /-- There is room in the out-buffer. -/
  room : s.writer.outbox.length < Writer.boundary
  /-- The frame is not too large. -/
  size : frame.payload.length ≤ s.codec.limit

/-- A call that encodes its frame holds the writer with it. -/
theorem Encodes.stage {t : Nat} {purpose : Purpose} {frame : Frame}
    (h : s.Encodes t purpose frame) :
    s.roster.stages[t]? = some (.sending purpose (.holding frame)) := by
  obtain ⟨label, htask⟩ := h.task
  exact stage_of_task htask

/-- A connect request goes out with the reply that its call waits for. -/
theorem Encodes.asking {t : Nat} {purpose : Purpose} {frame : Frame}
    (h : s.Encodes t purpose frame) (hframe : frame.isConnectRequest) :
    s.asking (.turn (.task t)) = [(frame, (Stage.sending purpose (.holding frame)).asks?)] := by
  obtain ⟨label, htask⟩ := h.task
  simp [Link.asking, entryAt, callEntry, htask, h.room, h.size, hframe]

/-- The call stays with the writer until the frame is out. -/
theorem Encodes.after {t : Nat} {purpose : Purpose} {frame : Frame}
    (h : s.Encodes t purpose frame) :
    (s.act (.turn (.task t))).roster.stages[t]? = some (.sending purpose .flushing) := by
  let woken : Link := { s with ready := s.ready.erase (.task t) }
  obtain ⟨label, htask⟩ := h.task
  have hturn : woken.taskTurn t = (({ woken with
      writer := woken.writer.put frame.envelope } : Link).setStage t (.sending purpose .flushing),
      true) := by
    have hencoded : woken.codec.encode frame = .ok frame.envelope := if_pos h.size
    unfold taskTurn
    rw [show woken.tasks[t]? = some ⟨label, .sending purpose (.holding frame), false⟩ from htask]
    dsimp only [sendTurn]
    rw [if_neg (by simp), if_pos h.room, hencoded]
  change (s.turnOf (.task t)).roster.stages[t]? = _
  rw [stages_turnOf]
  change (woken.taskTurn t).1.roster.stages[t]? = _
  rw [hturn, roster_setStage]
  exact Lists.getElem?_set_of_some h.stage _

/-- Only a call that encodes a frame asks for anything. -/
theorem asking_cases (s : Link) (action : Action) :
    s.asking action = [] ∨ ∃ t purpose frame, action = .turn (.task t) ∧
      s.Encodes t purpose frame ∧
        s.asking action = [(frame, (Stage.sending purpose (.holding frame)).asks?)] := by
  cases hwritten : (s.entryAt action).written with
  | nil => exact .inl (by simp [asking, hwritten])
  | cons first rest =>
    obtain ⟨t, frame⟩ := first
    have hmem : (t, frame) ∈ (s.entryAt action).written := by simp [hwritten]
    obtain ⟨rfl, purpose, hencodes⟩ : action = .turn (.task t) ∧
        ∃ purpose, s.Encodes t purpose frame := by
      unfold entryAt at hmem
      split at hmem
      · cases hmem
      · cases hmem
      · split at hmem
        · rename_i task htask
          split at hmem
          · cases hmem
          · rename_i hgoesOn
            unfold callEntry at hmem
            split at hmem
            · cases hmem
            · cases hmem
            · rename_i purpose frame' hstage
              split at hmem
              · rename_i hwrites
                obtain ⟨rfl, rfl⟩ := Prod.mk.inj (List.mem_singleton.mp hmem)
                refine ⟨rfl, purpose, ⟨⟨task.label, ?_⟩, hwrites.1, hwrites.2⟩⟩
                rw [htask, ← hstage, ← Bool.eq_false_iff.mpr hgoesOn]
              · cases hmem
            · split at hmem <;> cases hmem
            · cases hmem
        · cases hmem
      · cases hmem
    cases hframe : frame.isConnectRequest with
    | true => exact .inr ⟨t, purpose, frame, rfl, hencodes, hencodes.asking hframe⟩
    | false =>
      left
      obtain ⟨label, htask⟩ := hencodes.task
      simp [asking, entryAt, callEntry, htask, hencodes.room, hencodes.size, hframe]

/-! ### Who has asked -/

/-- Calls that wait for a connect response ask for it, once, when they write their frame. -/
structure Asks (s : Link) (x : Exchanges) : Prop where
  /-- No two calls wait for one reply. -/
  wants : s.roster.AskedOnce
  /-- Who asks for a connect response sends a connect request. -/
  requests : ∀ message bound,
    .called (.request message .connectResponse bound) ∈ s.roster.stages →
      message.kind = .connectRequest
  /-- The handler of a connect response belongs to the call that waits for it. -/
  own : ∀ key, s.MayConnect key → s.roster.CarriedFor key ∧ s.roster.ClaimedFor key
  /-- The replies that were asked for are there. -/
  known : ∀ key ∈ x.keys, key < s.replies.length
  /-- No reply was asked for twice. -/
  once : x.keys.Nodup
  /-- A request that is still to be sent was not asked before, and is a connect request if it is for
  a connect response. -/
  unsent : ∀ stage ∈ s.roster.stages, ∀ key frame, stage.unsent? = some (key, frame) →
    key ∉ x.keys ∧ (s.isConnect key → frame.isConnectRequest)
  /-- A call that has sent its request has asked for its connect response. -/
  sent : ∀ stage ∈ s.roster.stages, ∀ key, stage.sent? = some key → s.isConnect key →
    key ∈ x.keys

/-- Two calls do not want the same reply. -/
theorem eq_of_asks (h : s.roster.AskedOnce) {t u key : Nat} {stage stage' : Stage}
    (hstage : s.roster.stages[t]? = some stage) (hasks : stage.asks? = some key)
    (hstage' : s.roster.stages[u]? = some stage') (hasks' : stage'.asks? = some key) : u = t := by
  by_contra hne
  have hmoved := Roster.asked_move hstage .ended key
  have hkept : (s.roster.move t .ended).stages[u]? = some stage' := by
    rw [Roster.move, List.getElem?_set_ne (Ne.symm hne), hstage']
  have hpos := Roster.asked_pos hkept hasks'
  have honce := (h key).1
  have hended : (Stage.ended.asks? == some key).toNat = 0 := rfl
  rw [hasks, beq_self_eq_true, Bool.toNat_true, hended] at hmoved
  omega

/-- A reply that is asked for is there. -/
theorem Asks.known_of_asks (h : s.Asks x) {stage : Stage} {key : Nat}
    (hmem : stage ∈ s.roster.stages) (hasks : stage.asks? = some key) : key < s.replies.length := by
  obtain ⟨t, hstage⟩ := List.mem_iff_getElem?.mp hmem
  exact (h.wants key).2 (Roster.asked_pos hstage hasks)

/-- The replies that are asked for are in the order in which their requests go out. -/
theorem keys_exchange (s : Link) (x : Exchanges) (action : Action) :
    (s.exchange x action).keys = x.keys ++ (s.asking action).filterMap (·.2) :=
  List.filterMap_append ..

/-- Who asks for a reply has not asked before and has written the frame then. -/
theorem Asks.of_asking (h : s.Asks x) {key : Nat}
    (hkey : key ∈ (s.asking action).filterMap (·.2)) :
    key ∉ x.keys ∧ key < s.replies.length ∧
      ∃ (t : Nat) (purpose : Purpose), (Stage.sending purpose .flushing).asks? = some key ∧
        (s.act action).roster.stages[t]? = some (.sending purpose .flushing) := by
  rcases s.asking_cases action with hnone | ⟨t, purpose, frame, rfl, hencodes, hasking⟩
  · simp [hnone] at hkey
  · rw [hasking] at hkey
    have hasks : (Stage.sending purpose (.holding frame)).asks? = some key := by
      simpa using hkey
    have hmem := List.mem_of_getElem? hencodes.stage
    have hunsent : (Stage.sending purpose (.holding frame)).unsent? = some (key, frame) := by
      cases purpose with
      | reply other bound use =>
        obtain rfl := Option.some.inj hasks
        rfl
      | _ => cases hasks
    refine ⟨(h.unsent _ hmem key frame hunsent).1, h.known_of_asks hmem hasks, t, purpose, ?_,
      hencodes.after⟩
    rw [← hasks, Stage.asks_sending]

/-- Only requests that write a connect request wait for a connect response. -/
theorem Asks.requests_act (h : s.Asks x) (hasks : s.AsksForConnect action) {message : Message}
    {bound : Duration} (hmem : .called (.request message .connectResponse bound) ∈
      (s.act action).roster.stages) : message.kind = .connectRequest := by
  obtain ⟨u, hnew⟩ := List.mem_iff_getElem?.mp hmem
  cases s.comes_act hnew with
  | begun hnone hbegins =>
    cases action with
    | call label call hplain =>
      obtain rfl := Stage.called.inj hbegins
      simpa [AsksForConnect] using hasks
    | pull label channel pull bound =>
      obtain ⟨key, call, heq⟩ := hbegins
      cases heq
    | watch label reply bound =>
      obtain ⟨deadline, heq⟩ := hbegins
      cases heq
    | turn actor =>
      cases actor with
      | reader => cases hbegins
      | task t =>
        obtain ⟨period, heq⟩ := hbegins
        cases heq
    | _ => cases hbegins
  | kept hstage => exact h.requests message bound (List.mem_of_getElem? hstage)
  | dropped hended => cases hended
  | @stepped label stage haction htask hcourse =>
    have hstage : s.roster.stages[u]? = some stage := stage_of_task htask
    cases hcourse with
    | wait => exact h.requests message bound (List.mem_of_getElem? hstage)

/-- A call that joins the line waits for a new reply, and writes a connect request if that is a
connect response. -/
theorem Asks.unsent_of_writes (h : s.Asks x) {t : Nat} {label : Option Nat} {call : LinkCall}
    {purpose : Purpose} {frame : Frame} {handler : Option Handler}
    (htask : s.tasks[t]? = some ⟨label, .called call, false⟩)
    (hwrites : s.Writes call purpose frame handler) (hsize : frame.payload.length ≤ s.codec.limit)
    {key : Nat} {unsent : Frame}
    (hunsent : (Stage.sending purpose (.inLine frame handler)).unsent? = some (key, unsent)) :
    key ∉ x.keys ∧ ((s.act (.turn (.task t))).isConnect key → unsent.isConnectRequest) := by
  have hfresh : s.replies.length ∉ x.keys := fun hmem => Nat.lt_irrefl _ (h.known _ hmem)
  have hstage : s.roster.stages[t]? = some (.called call) := stage_of_task htask
  cases hwrites with
  | @request message frame kind bound hframe =>
    obtain ⟨rfl, rfl⟩ := Prod.mk.inj (Option.some.inj hunsent)
    refine ⟨hfresh, fun hconnect => ?_⟩
    obtain ⟨reply, hreply, hkind⟩ := kind_of_request htask hframe hsize
    obtain rfl : kind = .connectResponse := by
      rw [← hkind]
      exact mayConnect_of_isConnect hconnect reply hreply
    have hrequest := h.requests message bound (List.mem_of_getElem? hstage)
    rw [Frame.isConnectRequest, Message.type_of_toFrame hframe, hrequest, beq_self_eq_true]
  | handshake hbound hframe =>
    obtain ⟨rfl, rfl⟩ := Prod.mk.inj (Option.some.inj hunsent)
    refine ⟨hfresh, fun _ => ?_⟩
    rw [Frame.isConnectRequest, Message.type_of_toFrame hframe]
    rfl
  | _ => cases hunsent

/-- A call that waits for a connect response is about to write a connect request. -/
theorem Asks.unsent_act (h : s.Asks x) {u : Nat} {new : Stage} {key : Nat} {frame : Frame}
    (hnew : (s.act action).roster.stages[u]? = some new)
    (hunsent : new.unsent? = some (key, frame)) :
    key ∉ x.keys ∧ ((s.act action).isConnect key → frame.isConnectRequest) := by
  have hkept {stage : Stage} (hstage : s.roster.stages[u]? = some stage)
      (hunsent : stage.unsent? = some (key, frame)) :
      key ∉ x.keys ∧ ((s.act action).isConnect key → frame.isConnectRequest) := by
    have hmem := List.mem_of_getElem? hstage
    obtain ⟨hnot, hframe⟩ := h.unsent stage hmem key frame hunsent
    exact ⟨hnot, fun hconnect => hframe (isConnect_of_act
      (h.known_of_asks hmem (Stage.asks_of_unsent hunsent)) hconnect)⟩
  cases s.comes_act hnew with
  | begun hnone hbegins =>
    have hfirst := isFirst_of_begins s hbegins
    cases new <;> cases hfirst <;> cases hunsent
  | kept hstage => exact hkept hstage hunsent
  | dropped hended =>
    subst hended
    cases hunsent
  | @stepped label stage haction htask hcourse =>
    have hstage : s.roster.stages[u]? = some stage := stage_of_task htask
    subst haction
    cases hcourse with
    | wait => exact hkept hstage hunsent
    | @enter purpose frame' handler hwriter hopen =>
      refine hkept hstage ?_
      rw [← hunsent]
      cases purpose <;> rfl
    | queue hwrites hsize => exact h.unsent_of_writes htask hwrites hsize hunsent
    | @encode purpose frame' hroom hsize => cases purpose <;> cases hunsent
    | _ => cases hunsent

/-- A call whose connect request is written has asked. -/
theorem Asks.sent_act (h : s.Asks x) {u : Nat} {new : Stage} {key : Nat}
    (hnew : (s.act action).roster.stages[u]? = some new) (hsent : new.sent? = some key)
    (hconnect : (s.act action).isConnect key) : key ∈ (s.exchange x action).keys := by
  rw [keys_exchange]
  have hknown {stage : Stage} (hstage : s.roster.stages[u]? = some stage)
      (hasks : stage.asks? = some key) : s.isConnect key :=
    isConnect_of_act (h.known_of_asks (List.mem_of_getElem? hstage) hasks) hconnect
  have hkept {stage : Stage} (hstage : s.roster.stages[u]? = some stage)
      (hsent : stage.sent? = some key) : key ∈ x.keys ++ (s.asking action).filterMap (·.2) :=
    List.mem_append_left _ (h.sent stage (List.mem_of_getElem? hstage) key hsent
      (hknown hstage (Stage.asks_of_sent hsent)))
  cases s.comes_act hnew with
  | begun hnone hbegins =>
    have hfirst := isFirst_of_begins s hbegins
    cases new <;> cases hfirst <;> cases hsent
  | kept hstage => exact hkept hstage hsent
  | dropped hended =>
    subst hended
    cases hsent
  | @stepped label stage haction htask hcourse =>
    have hstage : s.roster.stages[u]? = some stage := stage_of_task htask
    subst haction
    cases hcourse with
    | wait => exact hkept hstage hsent
    | @encode purpose frame hroom hsize =>
      have hencodes : s.Encodes u purpose frame := ⟨⟨label, htask⟩, hroom, hsize⟩
      cases purpose with
      | reply other bound use =>
        obtain rfl : other = key := Option.some.inj hsent
        obtain ⟨-, hframe⟩ := h.unsent _ (List.mem_of_getElem? hstage) other frame rfl
        rw [hencodes.asking (hframe (hknown hstage rfl))]
        exact List.mem_append_right _ (List.mem_singleton_self other)
      | _ => cases hsent
    | @queue called purpose frame handler hwrites hsize => cases purpose <;> cases hsent
    | @enter purpose frame handler hwriter hopen => cases purpose <;> cases hsent
    | await other bound use deadline => exact hkept hstage hsent
    | _ => cases hsent

/-- Whatever is done with a link, calls that wait for a connect response ask for it once. -/
theorem Asks.act (h : s.Asks x) (hasks : s.AsksForConnect action) :
    (s.act action).Asks (s.exchange x action) := by
  have hmoves := s.act_moves action
  have hwants := hmoves.askedOnce h.wants
  constructor
  · exact hwants
  · exact fun message bound hmem => h.requests_act hasks hmem
  · intro key hmay
    obtain ⟨hcarried, hclaimed⟩ := h.own key (mayConnect_of_act hmay)
    exact hmoves.claimedFor (fun hoffered => not_mayConnect_of_offered hasks hoffered hmay)
      hcarried hclaimed
  · intro key hmem
    have hbefore : key < s.replies.length := by
      rw [keys_exchange] at hmem
      rcases List.mem_append.mp hmem with hmem | hmem
      · exact h.known key hmem
      · exact (h.of_asking hmem).2.1
    obtain ⟨reply, hreply, -⟩ := kind_act (List.getElem?_eq_getElem hbefore) action
    exact (List.getElem?_eq_some_iff.mp hreply).1
  · rw [keys_exchange]
    rcases s.asking_cases action with hnone | ⟨t, purpose, frame, -, -, hasking⟩
    · simpa [hnone] using h.once
    · refine List.nodup_append.mpr ⟨h.once, ?_, fun key hmem other hother heq => ?_⟩
      · rw [hasking]
        cases (Stage.sending purpose (.holding frame)).asks? <;> simp
      · exact (h.of_asking hother).1 (heq ▸ hmem)
  · intro stage hmem key frame hunsent
    obtain ⟨u, hnew⟩ := List.mem_iff_getElem?.mp hmem
    obtain ⟨hnot, hframe⟩ := h.unsent_act hnew hunsent
    refine ⟨?_, hframe⟩
    rw [keys_exchange, List.mem_append, not_or]
    refine ⟨hnot, fun hasked => ?_⟩
    -- Only the call that has just written its frame has asked.
    obtain ⟨-, -, t, purpose, hasks', hflushing⟩ := h.of_asking hasked
    obtain rfl := eq_of_asks hwants hflushing hasks' hnew (Stage.asks_of_unsent hunsent)
    rw [hflushing, Option.some.injEq] at hnew
    subst hnew
    cases purpose <;> cases hunsent
  · intro stage hmem key hsent hconnect
    obtain ⟨u, hnew⟩ := List.mem_iff_getElem?.mp hmem
    exact h.sent_act hnew hsent hconnect

/-- Nobody asks for anything in the beginning. -/
theorem asks_fresh (config : Config) : (fresh config).Asks {} where
  wants key := ⟨Nat.zero_le 1, fun hpos => by cases hpos⟩
  requests message bound hmem := by cases hmem
  own key hmay := ⟨fun stage hmem => (by cases hmem), fun hmem => (by cases hmem)⟩
  known key hmem := by cases hmem
  once := .nil
  unsent stage hmem := by cases hmem
  sent stage hmem := by cases hmem

end Link

end BeeProtocol
