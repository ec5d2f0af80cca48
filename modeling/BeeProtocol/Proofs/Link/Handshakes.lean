import BeeProtocol.Proofs.Link.Acceptance

/-!
# Handshakes and the phase of a link

In every run of a connection, a call that asks to connect ends with what has become of its reply,
and only an accepted one opens the link. One that fails while it waits leaves the link as it was, so
that a later one can be accepted.
-/

namespace BeeProtocol

/-- What a call asks for does not depend on how far it has written its request. -/
theorem Stage.handshake_sending (purpose : Purpose) (step step' : SendStep) :
    (sending purpose step).handshake? = (sending purpose step').handshake? := by
  cases purpose with
  | reply key bound use => cases use <;> rfl
  | _ => rfl

namespace Link

variable {s : Link} {action : Action} {t key : Nat} {label : Option Nat} {stage new : Stage}
  {bound : Duration} {deadline : Nat} {result : LinkResult} {handed : Nat → List (List UInt8)}
  {config : Config} {actions : List Action}

/-! ### What is known of the calls in a run -/

/-- A connect reply stays one. -/
theorem isConnect_act (h : s.isConnect key) (action : Action) : (s.act action).isConnect key := by
  obtain ⟨reply, hreply, hkind⟩ := isConnect_iff.mp h
  obtain ⟨reply', hreply', hsame⟩ := kind_act hreply action
  exact isConnect_iff.mpr ⟨reply', hreply', hsame.trans hkind⟩

/-- A call that asks to connect opens a connect response, under the bound that is configured. -/
theorem Handshakes.stages_act (h : s.Handshakes handed) (action : Action)
    (hmem : new ∈ (s.act action).roster.stages) (hhandshake : new.handshake? = some (key, bound)) :
    (s.act action).isConnect key ∧ (s.act action).config.handshakeTimeout = .ok bound := by
  have hconfig : (s.act action).config.handshakeTimeout = s.config.handshakeTimeout :=
    congrArg Config.handshakeTimeout (s.config_act action)
  have hkept {old : Stage} (hold : old ∈ s.roster.stages)
      (hsame : old.handshake? = some (key, bound)) :
      (s.act action).isConnect key ∧ (s.act action).config.handshakeTimeout = .ok bound := by
    obtain ⟨hconnect, hbound⟩ := h.stages old hold key bound hsame
    exact ⟨isConnect_act hconnect action, hconfig.trans hbound⟩
  obtain ⟨u, hu⟩ := List.mem_iff_getElem?.mp hmem
  cases comes_act s hu with
  | begun hnone hbegins =>
    have hfirst := isFirst_of_begins s hbegins
    cases new <;> first | cases hhandshake | cases hfirst
  | kept hold => exact hkept (List.mem_of_getElem? hold) hhandshake
  | dropped hended =>
    subst hended
    cases hhandshake
  | @stepped label old haction htask hcourse =>
    subst haction
    have hold : old ∈ s.roster.stages := List.mem_of_getElem? (stage_of_task htask)
    cases hcourse with
    | wait => exact hkept hold hhandshake
    | queue hwrites hsize =>
      cases hwrites with
      | handshake hbound hframe =>
        cases hhandshake
        obtain ⟨reply, hreply, hkind⟩ :=
          kind_of_beginRequest hframe hsize (taskTurn_handshake htask hbound)
        exact ⟨isConnect_iff.mpr ⟨reply, hreply, hkind⟩, hconfig.trans hbound⟩
      | _ => cases hhandshake
    | enter hwriter hopen =>
      exact hkept hold ((Stage.handshake_sending _ _ _).trans hhandshake)
    | encode hroom hsize =>
      exact hkept hold ((Stage.handshake_sending _ _ _).trans hhandshake)
    | await other limit use due =>
      cases use with
      | request => cases hhandshake
      | handshake => exact hkept hold hhandshake
    | _ => cases hhandshake

/-- In every run the handshakes stand as what their replies were handed says. -/
theorem handshakes_runOf (config : Config) {actions : List Action}
    (hbrings : ∀ action ∈ actions, action.bringsReply = false) :
    (runOf config actions).Handshakes fun key => (fresh config).handedIn key actions := by
  induction actions using List.reverseRecOn with
  | nil =>
    exact ⟨fun stage hmem => (by cases hmem), reckons_runOf config hbrings,
      fun stage hmem => (by cases hmem)⟩
  | append_singleton actions action ih =>
    have hbefore := ih fun action hmem => hbrings action (List.mem_append_left _ hmem)
    refine ⟨fun stage hmem key bound hhandshake => ?_, reckons_runOf config hbrings, ?_⟩
    · rw [runOf_concat] at hmem ⊢
      exact hbefore.stages_act action hmem hhandshake
    · rw [runOf_concat]
      exact hbefore.fit.act action

/-! ### How a link opens -/

/-- A call that asked to connect ends in an action because it is accepted. -/
def AcceptsAt (s : Link) (handed : Nat → List (List UInt8)) (action : Action) : Prop :=
  ∃ t label stage, action = .turn (.task t) ∧ s.tasks[t]? = some ⟨label, stage, false⟩ ∧
    s.EndsHandshake handed t stage .ok

/-- A handshake whose reply accepts it ends well. -/
theorem Handshakes.accepts (h : s.Handshakes handed) (hmem : stage ∈ s.roster.stages)
    (haccepted : s.isAcceptedAt stage) (t : Nat) : s.EndsHandshake handed t stage .ok := by
  unfold isAcceptedAt at haccepted
  split at haccepted
  · rename_i key bound use deadline
    obtain ⟨huse, hmessage⟩ := Bool.and_eq_true_iff.mp haccepted
    obtain rfl := eq_of_beq huse
    obtain ⟨outcome, houtcome, hmessage⟩ := (Option.any_eq_true ..).mp hmessage
    rcases h.outcome_cases hmem rfl with ⟨-, hnone⟩ | ⟨-, hlost, -⟩ | ⟨payload, hhanded, hdecided⟩
    · cases hnone.symm.trans houtcome
    · cases hlost.symm.trans houtcome
      cases hmessage
    · cases hdecided.symm.trans houtcome
      unfold MessageKind.outcomeOf at hmessage
      cases hdecode : Message.decode .connectResponse payload with
      | error reason =>
        rw [hdecode] at hmessage
        cases hmessage
      | ok message =>
        rw [hdecode] at hmessage
        obtain ⟨response, rfl⟩ := Message.exists_connectResponse hdecode
        exact .accepted hhanded hdecode hmessage
  · cases haccepted

/-- Only an accepted call opens a link, and only one that is connecting. -/
theorem Handshakes.opens (h : s.Handshakes handed) (hown : action.isOfConnection)
    (hopened : (s.act action).phase = .opened) :
    s.phase = .opened ∨ s.phase = .connecting ∧ s.AcceptsAt handed action := by
  rcases (s.passes_act action).phase with hsame | hclosed | ⟨hmarks, hconnecting, -⟩
  · exact .inl (hsame.symm.trans hopened)
  · cases hopened.symm.trans hclosed
  refine .inr ⟨hconnecting, ?_⟩
  unfold marksOpen at hmarks
  split at hmarks
  · cases hown
  · rename_i t
    obtain ⟨⟨label, stage, isAborted⟩, htask, hmarks⟩ := (Option.any_eq_true ..).mp hmarks
    obtain ⟨hgoesOn, haccepted⟩ := Bool.and_eq_true_iff.mp hmarks
    obtain rfl : isAborted = false := by simpa using hgoesOn
    have hmem : stage ∈ s.roster.stages := List.mem_of_getElem? (stage_of_task htask)
    exact ⟨t, label, stage, rfl, htask, h.accepts hmem haccepted t⟩
  · cases hmarks

/-- The link of a run is open from when a handshake was accepted while it was connecting. -/
def OpenSince (config : Config) (actions : List Action) : Prop :=
  ∃ before action after, actions = before ++ action :: after ∧
    (runOf config before).phase = .connecting ∧
    (runOf config before).AcceptsAt (fun key => (fresh config).handedIn key before) action ∧
    ∀ part, part <+: after → (runOf config (before ++ action :: part)).phase = .opened

/-- A link that is open has been so since a handshake was accepted. -/
theorem openSince_of_opened (hown : ∀ action ∈ actions, action.isOfConnection)
    (hopened : (runOf config actions).phase = .opened) : OpenSince config actions := by
  induction actions using List.reverseRecOn with
  | nil => cases hopened
  | append_singleton actions last ih =>
    have hbefore := fun action hmem => hown action (List.mem_append_left _ hmem)
    have hknown := handshakes_runOf config fun action hmem =>
      bringsReply_of_isOfConnection (hbefore action hmem)
    have hlast : ((runOf config actions).act last).phase = .opened :=
      runOf_concat config actions last ▸ hopened
    rcases hknown.opens (hown last (by simp)) hlast with hearlier | ⟨hconnecting, haccepts⟩
    · obtain ⟨before, action, after, rfl, hconnecting, haccepts, hsince⟩ := ih hbefore hearlier
      refine ⟨before, action, after ++ [last], by simp, hconnecting, haccepts, fun part hpart => ?_⟩
      rcases List.prefix_concat_iff.mp hpart with hall | hpart
      · rw [hall]
        simpa using hopened
      · exact hsince part hpart
    · refine ⟨actions, last, [], rfl, hconnecting, haccepts, fun part hpart => ?_⟩
      rw [List.prefix_nil.mp hpart]
      exact hopened

/-! ### What a call can still come to -/

/-- In a run, a call ends and leaves no handler behind. -/
theorem EndsHandshake.turn_runOf (hbrings : ∀ action ∈ actions, action.bringsReply = false)
    (htask : (runOf config actions).tasks[t]? = some ⟨label, stage, false⟩)
    (h : (runOf config actions).EndsHandshake (fun key => (fresh config).handedIn key actions) t
      stage result) :
    (runOf config actions).Concludes t label stage result
      ((runOf config actions).act (.turn (.task t))) := by
  have hbrings' : ∀ action ∈ actions ++ [.turn (.task t)], action.bringsReply = false :=
    List.forall_mem_append.mpr ⟨hbrings, List.forall_mem_singleton.mpr rfl⟩
  have hclaimed := (orderly_runOf config hbrings').claimed
  rw [runOf_concat] at hclaimed
  exact h.turn (handshakes_runOf config hbrings) (inOrder_runOf config actions).asked hclaimed htask

/-- A connect response goes to the only call that waits for one. -/
theorem find_of_waiting {frame : Frame} (hframe : frame.isConnectResponse)
    (hwaiting : s.waiting = [key]) : s.pending.find? (s.accepts frame) = some (.reply key) := by
  have haccepts : s.accepts frame = fun handler => handler.reply?.any s.isConnect :=
    funext (s.accepts_of_isConnectResponse hframe)
  rw [haccepts]
  rcases find_replyKeys s.pending s.isConnect with ⟨-, hnone⟩ | ⟨first, hfind, hfirst⟩
  · cases hwaiting.symm.trans hnone
  · obtain ⟨rfl, -⟩ := List.cons.inj (hwaiting.symm.trans hfirst)
    exact hfind

/-- On a calm link, a call that asks to connect is the only one that waits for a connect
response. -/
theorem IsCalm.waiting_asked (h : s.IsCalm []) (hknown : ∀ key, .reply key ∈ s.pending →
    key < s.replies.length) {next : Link}
    (hpending : next.pending = s.pending ++ [.reply s.replies.length])
    (hreplies : next.replies = s.replies ++ [.ofKind .connectResponse]) :
    next.waiting = [s.replies.length] := by
  have hkeys : replyKeys next.pending = replyKeys s.pending ++ [s.replies.length] := by
    rw [hpending, replyKeys, List.filterMap_append]
    rfl
  have hconnect : next.isConnect s.replies.length := by
    rw [isConnect, hreplies, List.getElem?_concat_length]
    rfl
  have hothers : (replyKeys s.pending).filter next.isConnect = [] := by
    rw [List.filter_eq_nil_iff]
    intro key hmem hasked
    have hmem := mem_replyKeys.mp hmem
    rw [isConnect, hreplies, List.getElem?_append_left (hknown key hmem)] at hasked
    have hwaits : key ∈ s.waiting := mem_waiting.mpr ⟨hmem, hasked⟩
    cases h.waiting hwaits
  rw [Link.waiting, hkeys, List.filter_append, hothers, List.nil_append]
  exact List.filter_cons_of_pos hconnect

/-- The reply of a handler that waits is there. -/
theorem known_of_pending (hbrings : ∀ action ∈ actions, action.bringsReply = false)
    (hmem : .reply key ∈ (runOf config actions).pending) :
    key < (runOf config actions).replies.length := by
  obtain ⟨stage, hstage, hclaims⟩ := (orderly_runOf config hbrings).claimed key hmem
  obtain ⟨t, ht⟩ := List.mem_iff_getElem?.mp hstage
  exact ((inOrder_runOf config actions).asked key).2
    (Roster.asked_pos ht (Stage.asks_of_claims hclaims))

/-- The reception of frames is something that a connection does. -/
theorem isOfConnection_reception {frames : List Frame} (hmem : action ∈ reception frames) :
    action.isOfConnection := by
  rcases List.mem_append.mp hmem with harrives | hturns
  · obtain ⟨frame, -, rfl⟩ := List.mem_map.mp harrives
    rfl
  · rw [List.eq_of_mem_replicate hturns]
    rfl

/-- On a calm link, a call that asks to connect can be answered by any payload, while nobody ends
and the phase stays. -/
theorem IsCalm.exists_handed (hown : ∀ action ∈ actions, action.isOfConnection)
    (h : (runOf config actions).IsCalm []) {application url : String} {frame : Frame}
    {payload : List UInt8} (hbound : (runOf config actions).config.handshakeTimeout = .ok bound)
    (hframe : (Message.connectRequest ⟨url, application⟩).toFrame = .ok frame)
    (hsize : frame.payload.length ≤ (runOf config actions).codec.limit)
    (hpayload : payload.length ≤ (runOf config actions).codec.limit) (label : Nat) :
    ∃ more : List Action, (∀ action ∈ more, action.isOfConnection) ∧
      .call label (.handshake application url) rfl ∈ more ∧
      ∃ t key deadline : Nat, (runOf config actions).tasks[t]? = none ∧
        (runOf config (actions ++ more)).tasks[t]? =
          some ⟨some label, .replying key bound .handshake deadline, false⟩ ∧
        (fresh config).handedIn key (actions ++ more) = [payload] ∧
        (runOf config (actions ++ more)).finished = (runOf config actions).finished ∧
        (runOf config (actions ++ more)).phase = (runOf config actions).phase ∧
        (runOf config (actions ++ more)).isHeld := by
  have hbrings := fun action hmem => bringsReply_of_isOfConnection (hown action hmem)
  let s := runOf config actions
  let key := s.replies.length
  let deadline := Clock.after s.now bound
  let reply : Frame := ⟨MessageKind.connectResponse.frameType, payload⟩
  obtain ⟨asks, hasks, hcall, writer, ready, hasked⟩ :=
    h.exists_asked hbound hframe hsize label
  let asked : Link :=
    { s.withAsker label (.replying key bound .handshake deadline) with
      pending := s.pending ++ [.reply key]
      writer := writer
      ready := ready }
  have hrun : runOf config (actions ++ asks) = asked := (runOf_append ..).trans hasked
  -- Nothing is handed over before the peer answers, for the reply is still open.
  have hnone : (fresh config).handedIn key (actions ++ asks) = [] := by
    have hknown : asked.Handshakes fun key => (fresh config).handedIn key (actions ++ asks) := by
      rw [← hrun]
      exact handshakes_runOf config (List.forall_mem_append.mpr
        ⟨hbrings, fun action hmem => bringsReply_of_isOfConnection (hasks action hmem)⟩)
    have hopen : asked.outcome? key = none := by
      unfold outcome?
      rw [show asked.replies[key]? = some (.ofKind .connectResponse) from
        List.getElem?_concat_length]
      rfl
    have hmem : .replying key bound .handshake deadline ∈ asked.roster.stages :=
      List.mem_map.mpr ⟨_, List.mem_append_right _ (List.mem_singleton_self _), rfl⟩
    rcases hknown.outcome_cases hmem rfl with ⟨hnone, -⟩ | ⟨hnone, -⟩ | ⟨_, -, hdecided⟩
    · exact hnone
    · exact hnone
    · cases hopen.symm.trans hdecided
  have hwaiting : asked.waiting = [key] :=
    h.waiting_asked (fun other hmem => known_of_pending hbrings hmem) rfl rfl
  obtain ⟨pending, replies, ready', hreceived, hhanded⟩ := exists_received (s := asked) h.isHeld
    h.reader h.inbound hpayload (find_of_waiting (show reply.isConnectResponse from rfl) hwaiting)
  have hlast : runOf config (actions ++ (asks ++ reception [reply])) =
      { asked with pending := pending, replies := replies, ready := ready' } := by
    rw [← List.append_assoc, runOf_append, hrun, hreceived]
  refine ⟨asks ++ reception [reply], ?_, List.mem_append_left _ hcall, s.tasks.length, key,
    deadline, List.getElem?_eq_none_iff.mpr (Nat.le_refl _), ?_, ?_, ?_⟩
  · exact List.forall_mem_append.mpr ⟨hasks, fun action => isOfConnection_reception⟩
  · rw [hlast]
    exact List.getElem?_concat_length
  · rw [← List.append_assoc, handedIn_append,
      show (actions ++ asks).foldl act (fresh config) = asked from hrun, hhanded, hnone,
      List.nil_append]
  · rw [hlast]
    exact ⟨rfl, rfl, h.isHeld⟩

/-- A call that asks to connect from now on can come to wait for its reply and end because it is
accepted, whatever payload accepts it, and the link is open then. -/
def CanConnect (s : Link) : Prop :=
  ∀ label application url bound frame payload response,
    s.config.handshakeTimeout = .ok bound →
    (Message.connectRequest ⟨url, application⟩).toFrame = .ok frame →
    frame.payload.length ≤ s.codec.limit → payload.length ≤ s.codec.limit →
    Message.decode .connectResponse payload = .ok (.connectResponse response) →
    response.isAccepted →
      ∃ more : List Action, (∀ action ∈ more, action.isOfConnection) ∧
        .call label (.handshake application url) rfl ∈ more ∧
        ∃ t key deadline : Nat, s.tasks[t]? = none ∧
          (more.foldl act s).tasks[t]? =
            some ⟨some label, .replying key bound .handshake deadline, false⟩ ∧
          ((more.foldl act s).act (.turn (.task t))).finished = s.finished ++ [(label, .ok)] ∧
          ((more.foldl act s).act (.turn (.task t))).phase = .opened

/-- An open link is opened after a handshake that ended well. -/
theorem after_ok_of_open (hopen : s.isClosed = false) : s.phase.after .ok = .opened := by
  unfold isClosed at hopen
  cases hphase : s.phase with
  | closed =>
    rw [hphase] at hopen
    cases hopen
  | _ => rfl

/-- On a calm link a handshake can succeed. -/
theorem IsCalm.canConnect (hown : ∀ action ∈ actions, action.isOfConnection)
    (h : (runOf config actions).IsCalm []) : (runOf config actions).CanConnect := by
  intro label application url bound frame payload response hbound hframe hsize hpayload hdecode
    haccepts
  obtain ⟨more, hmore, hcall, t, key, deadline, hnew, htask, hhanded, hfinished, hphase, hheld⟩ :=
    h.exists_handed hown hbound hframe hsize hpayload label
  have hbrings : ∀ action ∈ actions ++ more, action.bringsReply = false := fun action hmem =>
    bringsReply_of_isOfConnection (List.forall_mem_append.mpr ⟨hown, hmore⟩ action hmem)
  have hconcludes := EndsHandshake.turn_runOf hbrings htask (.accepted hhanded hdecode haccepts)
  refine ⟨more, hmore, hcall, t, key, deadline, hnew, ?_⟩
  rw [← runOf_append]
  refine ⟨htask, ?_, ?_⟩
  · rw [hconcludes.finished, hfinished]
    rfl
  · rcases hconcludes.phase with hafter | ⟨hgiven, -⟩
    · rw [hafter, hphase]
      exact after_ok_of_open h.isOpen
    · cases hheld.symm.trans hgiven

/-- A call that fails while it waits for its reply takes its handler off the queue and changes
nothing else of the link. -/
theorem EndsHandshake.act_of_fails
    (h : s.EndsHandshake handed t (.replying key bound .handshake deadline) result)
    (hknown : s.Handshakes handed)
    (htask : s.tasks[t]? = some ⟨label, .replying key bound .handshake deadline, false⟩)
    (hfails : result ≠ .ok) :
    ∃ ready, s.act (.turn (.task t)) =
      ({ (s.unregister (.reply key)).conclude t result with
        ready := ready } : Link).releaseUnused := by
  have hconcluded : ((s.woken t).unregister (.reply key)).conclude t result =
      { (s.unregister (.reply key)).conclude t result with ready := s.ready.erase (.task t) } := by
    rw [conclude_eq_setStage, conclude_eq_setStage]
    rfl
  obtain ⟨ready, hreleased⟩ := exists_released (h.taskTurn_of_fails hknown htask hfails)
  refine ⟨ready, ?_⟩
  rw [hreleased, hconcluded]

/-- On a link that is calm but for the call, it is calm afterwards. -/
theorem EndsHandshake.isCalm_of_fails
    (h : s.EndsHandshake handed t (.replying key bound .handshake deadline) result)
    (hknown : s.Handshakes handed)
    (htask : s.tasks[t]? = some ⟨label, .replying key bound .handshake deadline, false⟩)
    (hfails : result ≠ .ok) (hcalm : s.IsCalm [key]) : (s.act (.turn (.task t))).IsCalm [] := by
  obtain ⟨ready, hact⟩ := h.act_of_fails hknown htask hfails
  have hconcluded : (s.unregister (.reply key)).conclude t result =
      { (s.unregister (.reply key)).setStage t .ended with
        finished := s.finished ++ label.toList.map fun label => (label, result) } := by
    rw [conclude_eq_setStage, show (s.unregister (.reply key)).tasks[t]? = _ from htask]
    rfl
  rw [releaseUnused_of_isHeld _ (by rw [hconcluded]; exact hcalm.isHeld), hconcluded] at hact
  rw [hact]
  refine ⟨hcalm.isOpen, hcalm.isHeld, hcalm.line, hcalm.inbound, hcalm.reader, fun other hmem => ?_⟩
  obtain ⟨hpending, hconnect⟩ := mem_waiting.mp hmem
  obtain ⟨hpending, hother⟩ := List.mem_filter.mp hpending
  have hwaits : other ∈ s.waiting := mem_waiting.mpr ⟨hpending, hconnect⟩
  obtain rfl := List.mem_singleton.mp (hcalm.waiting hwaits)
  simp at hother

/-- A call that asks to connect ends with a result in its turn if and only if there is a reason for
it. -/
theorem finished_act_handshake_iff {label : Nat}
    (hbrings : ∀ action ∈ actions, action.bringsReply = false)
    (htask : (runOf config actions).tasks[t]? = some ⟨some label, stage, false⟩)
    (hhandshake : stage.isHandshake) :
    ((runOf config actions).act (.turn (.task t))).finished =
        (runOf config actions).finished ++ [(label, result)] ↔
      (runOf config actions).EndsHandshake (fun key => (fresh config).handedIn key actions) t
        stage result := by
  constructor
  · intro hfinished
    rcases (handshakes_runOf config hbrings).turn_cases htask hhandshake with
      ⟨other, hends⟩ | ⟨hlingers, -⟩
    · have hother := (hends.turn_runOf hbrings htask).finished
      obtain ⟨-, rfl⟩ := Prod.mk.inj
        (List.cons.inj (List.append_cancel_left (hother.symm.trans hfinished))).1
      exact hends
    · obtain ⟨new, hgoes, -⟩ := hlingers.act
      simpa using hgoes.finished.symm.trans hfinished
  · intro hends
    exact (hends.turn_runOf hbrings htask).finished

/-! ### Handshakes and the phase -/

/-- How handshakes end on a link and what becomes of its phase, given the payloads that were handed
to the handlers of the replies so far. -/
structure HandshakesAgree (s : Link) (handed : Nat → List (List UInt8)) : Prop where
  /-- One payload at most is handed to a call that asks to connect. -/
  once : ∀ stage ∈ s.roster.stages, ∀ key bound, stage.handshake? = some (key, bound) →
    handed key = [] ∨ ∃ payload, handed key = [payload]
  /-- It ends with a result in its turn if and only if there is a reason for it. -/
  ends : ∀ t label stage result, s.tasks[t]? = some ⟨some label, stage, false⟩ → stage.isHandshake →
    ((s.act (.turn (.task t))).finished = s.finished ++ [(label, result)] ↔
      s.EndsHandshake handed t stage result)
  /-- What it ends with decides the phase, and it leaves no handler on the queue. -/
  concludes : ∀ t label stage result, s.tasks[t]? = some ⟨label, stage, false⟩ →
    s.EndsHandshake handed t stage result →
      s.Concludes t label stage result (s.act (.turn (.task t)))
  /-- Without a reason to end it goes on, and waits for its reply only until one is handed over or
  its time is up. -/
  lingers : ∀ t label stage, s.tasks[t]? = some ⟨label, stage, false⟩ → stage.isHandshake →
    (∀ result, ¬ s.EndsHandshake handed t stage result) →
      s.Lingers t stage (s.act (.turn (.task t))) ∧
        ∀ key bound deadline, stage = .replying key bound .handshake deadline →
          handed key = [] ∧ Clock.isDue s.now deadline = false
  /-- If it fails while it waits for its reply, all else stays as it is. -/
  leaves : ∀ t label key bound deadline result,
    s.tasks[t]? = some ⟨label, .replying key bound .handshake deadline, false⟩ →
    s.EndsHandshake handed t (.replying key bound .handshake deadline) result → result ≠ .ok →
      ∃ ready, s.act (.turn (.task t)) =
        ({ (s.unregister (.reply key)).conclude t result with ready := ready } : Link).releaseUnused
  /-- Only an accepted call opens a link, and only one that is connecting. -/
  opens : ∀ action : Action, action.isOfConnection → (s.act action).phase = .opened →
    s.phase = .opened ∨ s.phase = .connecting ∧ s.AcceptsAt handed action
  /-- The handler of a reply waits only as long as its call. -/
  queued : ∀ key, .reply key ∈ s.pending → ∃ stage ∈ s.roster.stages, stage.claims? = some key

/-- In every run of a connection, handshakes and the phase agree. An open link was opened by a
handshake and has not been closed since. On a link that is calm, also after a handshake that failed
while it waited for its reply, a later one can be accepted. -/
theorem handshakesAgree_runOf (config : Config) (actions : List Action)
    (hown : ∀ action ∈ actions, action.isOfConnection) :
    (runOf config actions).HandshakesAgree (fun key => (fresh config).handedIn key actions) ∧
    ((runOf config actions).phase = .opened → OpenSince config actions) ∧
    ((runOf config actions).IsCalm [] → (runOf config actions).CanConnect) ∧
    ∀ t label key bound deadline result,
      (runOf config actions).tasks[t]? =
        some ⟨label, .replying key bound .handshake deadline, false⟩ →
      (runOf config actions).EndsHandshake (fun key => (fresh config).handedIn key actions) t
        (.replying key bound .handshake deadline) result →
      result ≠ .ok → (runOf config actions).IsCalm [key] →
        ((runOf config actions).act (.turn (.task t))).CanConnect := by
  have hbrings := fun action hmem => bringsReply_of_isOfConnection (hown action hmem)
  have hknown := handshakes_runOf config hbrings
  refine ⟨⟨?_, ?_, ?_, ?_, ?_, ?_, ?_⟩, openSince_of_opened hown, IsCalm.canConnect hown, ?_⟩
  · intro stage hmem key bound hhandshake
    rcases hknown.outcome_cases hmem hhandshake with ⟨hnone, -⟩ | ⟨hnone, -⟩ | ⟨payload, hone, -⟩
    · exact .inl hnone
    · exact .inl hnone
    · exact .inr ⟨payload, hone⟩
  · exact fun t label stage result htask hhandshake =>
      finished_act_handshake_iff hbrings htask hhandshake
  · exact fun t label stage result htask hends => hends.turn_runOf hbrings htask
  · intro t label stage htask hhandshake hnone
    rcases hknown.turn_cases htask hhandshake with ⟨result, hends⟩ | ⟨hlingers, hwaits⟩
    · exact absurd hends (hnone result)
    · exact ⟨hlingers.act, hwaits⟩
  · exact fun t label key bound deadline result htask hends => hends.act_of_fails hknown htask
  · exact fun action hown hopened => hknown.opens hown hopened
  · exact (orderly_runOf config hbrings).claimed
  · intro t label key bound deadline result htask hends hfails hcalm
    have hafter := hends.isCalm_of_fails hknown htask hfails hcalm
    rw [← runOf_concat] at hafter ⊢
    exact hafter.canConnect
      (List.forall_mem_append.mpr ⟨hown, List.forall_mem_singleton.mpr rfl⟩)

/-- A call asks to connect and waits for the answer. -/
def asksToEnter (label : Nat) : List Action :=
  .call label (.handshake "" "") rfl :: List.replicate 4 (.turn (.task label))

/-- A handshake is rejected, the answer to the next one is malformed, and the third one is not
answered in time. -/
def failsThrice : List Action :=
  asksToEnter 0 ++ reception [rejection 5] ++ [.turn (.task 0)] ++
    asksToEnter 1 ++ reception [⟨1, [7]⟩] ++ [.turn (.task 1)] ++ asksToEnter 2 ++ [.pass 31000]

/-- The third of them leaves the link as it was, so that a fourth one can be accepted; if it is, the
link is open from then on. -/
theorem handshakesAgree_failsThrice :
    ((runOf (.defaults "" 0) failsThrice).act (.turn (.task 2))).finished =
        (runOf (.defaults "" 0) failsThrice).finished ++
          [(2, .failed (replyTimeout (.ofSeconds 31)))] ∧
      ((runOf (.defaults "" 0) failsThrice).act (.turn (.task 2))).phase = .connecting ∧
      ((runOf (.defaults "" 0) failsThrice).act (.turn (.task 2))).CanConnect ∧
      OpenSince (.defaults "" 0)
        (failsThrice ++ .turn (.task 2) :: asksToEnter 3 ++ reception [⟨1, [0]⟩] ++
          [.turn (.task 3)]) := by
  obtain ⟨hagree, -, -, hrecovers⟩ :=
    handshakesAgree_runOf (.defaults "" 0) failsThrice (by decide)
  obtain ⟨-, hopened, -, -⟩ := handshakesAgree_runOf (.defaults "" 0)
    (failsThrice ++ .turn (.task 2) :: asksToEnter 3 ++ reception [⟨1, [0]⟩] ++ [.turn (.task 3)])
    (by decide)
  have htask : (runOf (.defaults "" 0) failsThrice).tasks[2]? = some ⟨some 2,
      .replying 2 (.ofSeconds 31) .handshake (Clock.after 0 (.ofSeconds 31)), false⟩ := rfl
  have hlate : (runOf (.defaults "" 0) failsThrice).EndsHandshake
      (fun key => (fresh (.defaults "" 0)).handedIn key failsThrice) 2
      (.replying 2 (.ofSeconds 31) .handshake (Clock.after 0 (.ofSeconds 31)))
      (.failed (replyTimeout (.ofSeconds 31))) := .late rfl (by decide) (by decide) (by decide)
  have hcalm : (runOf (.defaults "" 0) failsThrice).IsCalm [2] :=
    ⟨rfl, rfl, rfl, rfl, rfl, by decide⟩
  refine ⟨(hagree.ends 2 2 _ _ htask rfl).mpr hlate, rfl, ?_, hopened rfl⟩
  exact hrecovers 2 (some 2) 2 _ _ _ htask hlate nofun hcalm

end Link

end BeeProtocol
