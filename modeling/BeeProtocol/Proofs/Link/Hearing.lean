import BeeProtocol.Proofs.Link.Answering

/-!
# Hearing one's own answer

As long as no answer to a request that nobody waits for any more is handed to somebody else, those
who wait for connect responses stand in the order of the requests that are not answered yet, and who
waits hears nothing but the answer to its own request.
-/

namespace BeeProtocol.Link

variable {s : Link} {x : Exchanges} {action : Action} {frame : Frame} {key : Nat}

/-! ### The order of those who wait -/

/-- Those who wait stand in the order of the requests that are not answered. At most one more waits
behind them, who is about to write its request. -/
def WaitsInOrder (s : Link) (x : Exchanges) : Prop :=
  ∃ writer : Option Nat, (∀ key ∈ writer, key ∉ x.keys) ∧
    s.waiting.Sublist (x.unanswered ++ writer.toList)

/-- How a link stands to its peer. -/
structure Exchanging (s : Link) (x : Exchanges) : Prop where
  /-- Who waits for a connect response asks for it, once. -/
  asks : s.Asks x
  /-- The requests on the wire are those that were asked. -/
  wired : s.IsWired x
  /-- The frames are on the wire in the order of registration. -/
  wire : ∃ log, Roster.WireOrder s.roster.stages s.roster.line log
  /-- There are no more answers than requests. -/
  behind : x.answered.length ≤ x.asked.length
  /-- Who waits for a connect response stands in the queue in the order of the requests. -/
  order : s.WaitsInOrder x
  /-- What a call is told was an answer to its own request. -/
  told : ∀ key, s.MayConnect key → s.roster.Told key (x.Answers key)

/-- Only calls that write have the writer. -/
theorem Exchanging.head_of_isWriting (h : s.Exchanging x) {t : Nat} {stage : Stage}
    (hstage : s.roster.stages[t]? = some stage) (hwrites : stage.isWriting) :
    s.roster.line.head? = some t := by
  obtain ⟨log, hwire⟩ := h.wire
  exact hwire.writer t stage hstage hwrites

/-- Who waits without having asked is about to write its request. -/
theorem Exchanging.writer_of_waiting (h : s.Exchanging x) (hwaits : key ∈ s.waiting)
    (hnot : key ∉ x.keys) : ∃ t bound use frame,
      s.roster.stages[t]? = some (.sending (.reply key bound use) (.holding frame)) ∧
        s.roster.line.head? = some t := by
  obtain ⟨hmem, hconnect⟩ := mem_waiting.mp hwaits
  obtain ⟨stage, hstage, hclaims⟩ := (h.asks.own key (mayConnect_of_isConnect hconnect)).2 hmem
  rcases Stage.sent_of_claims hclaims with hsent | ⟨bound, use, frame, rfl⟩
  · exact absurd (h.asks.sent stage hstage key hsent hconnect) hnot
  · obtain ⟨t, hget⟩ := List.mem_iff_getElem?.mp hstage
    exact ⟨t, bound, use, frame, hget, h.head_of_isWriting hget rfl⟩

/-- All who wait have asked, but for the one who is about to write its request. -/
theorem Exchanging.waiting_sublist (h : s.Exchanging x) {keys : List Nat}
    (hkeys : ∀ t key bound use frame,
      s.roster.stages[t]? = some (.sending (.reply key bound use) (.holding frame)) →
        s.roster.line.head? = some t → keys = [key]) :
    s.waiting.Sublist (x.unanswered ++ keys) := by
  obtain ⟨writer, hnot, hqueue⟩ := h.order
  have hasked (hasked : s.waiting.Sublist x.unanswered) :
      s.waiting.Sublist (x.unanswered ++ keys) := hasked.trans (List.sublist_append_left ..)
  cases writer with
  | none => exact hasked (by rwa [Option.toList_none, List.append_nil] at hqueue)
  | some key =>
    by_cases hwaits : key ∈ s.waiting
    · obtain ⟨t, bound, use, frame, hstage, hhead⟩ := h.writer_of_waiting hwaits (hnot key rfl)
      rw [hkeys t key bound use frame hstage hhead]
      exact hqueue
    · exact hasked (Lists.sublist_of_notMem hqueue hwaits)

/-- The requests that go out join those without an answer, if none is heard. -/
theorem unanswered_exchange (hbehind : x.answered.length ≤ x.asked.length)
    (hheard : s.heard? action = none) :
    (s.exchange x action).unanswered = x.unanswered ++ (s.asking action).filterMap (·.2) := by
  unfold Exchanges.unanswered exchange
  rw [hheard, Option.toList_none, List.map_nil, List.append_nil,
    List.drop_append_of_le_length hbehind, List.filterMap_append]

/-- As long as nobody joins the queue, whoever writes its request has asked then. -/
theorem Exchanging.order_of_asking (h : s.Exchanging x) (hheard : s.heard? action = none)
    (hnone : Event.registeredIn (s.eventsAt action) = []) :
    (s.act action).WaitsInOrder (s.exchange x action) := by
  have hsame : (s.act action).waiting.Sublist s.waiting := by
    have hwaiting := h.asks.waiting_sublist (List.Subset.refl _)
      (s.act_moves action).replyKeys_pending
    rw [hnone] at hwaiting
    simpa [waiting, replyKeys] using hwaiting
  unfold WaitsInOrder
  rw [unanswered_exchange h.behind hheard]
  rcases s.asking_cases action with hquiet | ⟨t, purpose, frame, rfl, hencodes, hasking⟩
  · obtain ⟨writer, hnot, hqueue⟩ := h.order
    rw [keys_exchange, hquiet]
    simp only [List.filterMap_nil, List.append_nil]
    exact ⟨writer, hnot, hsame.trans hqueue⟩
  · refine ⟨none, by simp, ?_⟩
    rw [Option.toList_none, List.append_nil]
    refine hsame.trans (h.waiting_sublist fun u key bound use frame' hstage hhead => ?_)
    have hwriter := h.head_of_isWriting hencodes.stage rfl
    rw [hhead, Option.some.injEq] at hwriter
    subst hwriter
    rw [hencodes.stage, Option.some.injEq, Stage.sending.injEq] at hstage
    rw [hasking, hstage.1]
    rfl

/-- Who joins the queue for a connect response has not asked for it. -/
theorem Exchanging.notMem_of_inLine (h : s.Exchanging x) {t : Nat} {purpose : Purpose}
    (hstage : s.roster.stages[t]? = some (.sending purpose (.inLine frame (some (.reply key)))))
    (hmay : s.MayConnect key) : key ∉ x.keys := by
  have hmem := List.mem_of_getElem? hstage
  have hasks := (h.asks.own key hmay).1 _ hmem rfl
  have hunsent : (Stage.sending purpose (.inLine frame (some (.reply key)))).unsent? =
      some (key, frame) := by
    cases purpose with
    | reply other bound use =>
      obtain rfl := Option.some.inj hasks
      rfl
    | _ => cases hasks
  exact (h.asks.unsent _ hmem key frame hunsent).1

/-- Who joins the queue waits behind all others, who have asked. -/
theorem Exchanging.order_of_registered (h : s.Exchanging x) {t : Nat} {purpose : Purpose}
    {handler : Handler} (hheard : s.heard? (.turn (.task t)) = none)
    (hstage : s.roster.stages[t]? = some (.sending purpose (.inLine frame (some handler))))
    (hhead : s.roster.line.head? = some t)
    (hone : Event.registeredIn (s.eventsAt (.turn (.task t))) = [handler]) :
    (s.act (.turn (.task t))).WaitsInOrder (s.exchange x (.turn (.task t))) := by
  have hquiet : s.asking (.turn (.task t)) = [] := by
    refine (s.asking_cases _).resolve_right ?_
    rintro ⟨u, purpose', frame', haction, hencodes, -⟩
    obtain rfl : t = u := by simpa using haction
    have hwrites := hencodes.stage
    rw [hstage] at hwrites
    cases hwrites
  have hasked : s.waiting.Sublist (x.unanswered ++ []) := by
    refine h.waiting_sublist fun u key bound use frame' hstage' hhead' => ?_
    rw [hhead, Option.some.injEq] at hhead'
    subst hhead'
    rw [hstage] at hstage'
    cases hstage'
  have hwaiting := h.asks.waiting_sublist (List.Subset.refl _)
    (s.act_moves (.turn (.task t))).replyKeys_pending
  rw [hone] at hwaiting
  have hjoined := hwaiting.trans (hasked.append_right _)
  unfold WaitsInOrder
  rw [unanswered_exchange h.behind hheard, keys_exchange, hquiet]
  simp only [List.filterMap_nil, List.append_nil] at hjoined ⊢
  cases handler with
  | statement other => exact ⟨none, by simp, hjoined⟩
  | reply key =>
    cases hconnect : (s.act (.turn (.task t))).isConnect key with
    | false => exact ⟨none, by simp, by simpa [replyKeys, Handler.reply?, hconnect] using hjoined⟩
    | true =>
      have hmay := mayConnect_of_act (mayConnect_of_isConnect hconnect)
      refine ⟨some key, ?_, by simpa [replyKeys, Handler.reply?, hconnect] using hjoined⟩
      intro other hother
      obtain rfl := Option.some.inj hother
      exact h.notMem_of_inLine hstage hmay

/-! ### Hearing an answer -/

/-- The call whose request is answered is the first of those that wait. -/
theorem Exchanging.first_of_next (h : s.Exchanging x) (hnext : x.next? = some key)
    (hwaits : key ∈ s.waiting) : ∃ rest writer, s.waiting = key :: rest ∧
      (∀ other ∈ writer, other ∉ x.keys) ∧ rest.Sublist (x.later ++ Option.toList writer) := by
  obtain ⟨writer, hnot, hqueue⟩ := h.order
  have hunanswered : x.unanswered = key :: x.later := by rw [x.unanswered_eq, hnext]; rfl
  have hkeys : (x.unanswered ++ writer.toList).Nodup := by
    refine List.nodup_append.mpr ⟨x.unanswered_sublist.nodup h.asks.once, ?_, ?_⟩
    · cases writer <;> simp
    · rintro other hmem last hlast rfl
      exact hnot other (Option.mem_toList.mp hlast) (x.unanswered_sublist.subset hmem)
  rw [hunanswered, List.cons_append] at hqueue hkeys
  rcases List.sublist_cons_iff.mp hqueue with hskip | ⟨rest, hrest, hlater⟩
  · exact absurd (hskip.subset hwaits) (List.nodup_cons.mp hkeys).1
  · exact ⟨rest, writer, hrest, hnot, hlater⟩

/-- A connect response that somebody takes is taken by the call whose request it answers. -/
theorem Exchanging.taken (h : s.Exchanging x) (hresponse : frame.isConnectResponse)
    (hwaits : (s.takeMatch frame).1 = none ∨
      ∃ key ∈ x.next?, .reply key ∈ s.pending ∧ s.accepts frame (.reply key)) :
    (s.takeMatch frame).1 = none ∧ s.waiting = [] ∨
      ∃ key writer, x.next? = some key ∧ (s.takeMatch frame).1 = some (.reply key) ∧
        (∀ other ∈ writer, other ∉ x.keys) ∧
          ((replyKeys (s.pending.erase (.reply key))).filter s.isConnect).Sublist
            (x.later ++ Option.toList writer) := by
  rcases s.takeMatch_connectResponse hresponse with hnone | ⟨first, htaken, hwaiting⟩
  · exact .inl hnone
  · right
    rcases hwaits with hnone | ⟨key, hnext, hmem, haccepts⟩
    · rw [hnone] at htaken
      cases htaken
    · rw [s.accepts_of_isConnectResponse hresponse] at haccepts
      obtain ⟨rest, writer, hfirst, hnot, hrest⟩ :=
        h.first_of_next hnext (mem_waiting.mpr ⟨hmem, haccepts⟩)
      rw [hwaiting] at hfirst
      obtain ⟨rfl, rfl⟩ := List.cons.inj hfirst
      exact ⟨first, writer, hnext, htaken, hnot, hrest⟩

/-- The reader sends no request. -/
theorem asking_reader (s : Link) : s.asking (.turn .reader) = [] := by
  refine (s.asking_cases _).resolve_right ?_
  rintro ⟨t, purpose, frame, haction, -⟩
  cases haction

/-- Once a connect response is read, those who asked later are next. -/
theorem Exchanging.order_of_heard (h : s.Exchanging x) (hheard : s.heard? action = some frame)
    (hwaits : s.AnswersWaiting x action) :
    (s.act action).WaitsInOrder (s.exchange x action) := by
  obtain ⟨rfl, hgoesOn, hstage, hframe, hresponse⟩ := heard_iff.mp hheard
  obtain ⟨next, hact, hroster⟩ := exists_handOver hgoesOn hstage hframe
  have hkeys : (s.exchange x (.turn .reader)).keys = x.keys := by
    rw [keys_exchange, asking_reader, List.filterMap_nil, List.append_nil]
  have hlater : (s.exchange x (.turn .reader)).unanswered = x.later := by
    unfold Exchanges.unanswered Exchanges.later exchange
    rw [asking_reader, hheard]
    simp
  have hpending {handlers : List Handler} (hleft : next.pending = handlers) :
      (replyKeys (s.act (.turn .reader)).pending).Sublist (replyKeys handlers ++ []) := by
    rw [hact, ← hleft, List.append_nil]
    exact next.pending_releaseUnused.filterMap _
  unfold WaitsInOrder
  rw [hkeys, hlater]
  rcases h.taken hresponse (hwaits frame hheard) with
    ⟨hnone, hempty⟩ | ⟨key, writer, -, htaken, hnot, hrest⟩
  · have hleft : next.pending = s.pending := by
      rw [hnone] at hroster
      exact congrArg Roster.pending hroster
    have hwaiting := h.asks.waiting_sublist (List.Subset.refl _) (hpending hleft)
    rw [← waiting, hempty] at hwaiting
    exact ⟨none, by simp, hwaiting.trans (List.nil_sublist _)⟩
  · have hleft : next.pending = s.pending.erase (.reply key) := by
      rw [htaken] at hroster
      exact congrArg Roster.pending hroster
    have hwaiting := h.asks.waiting_sublist List.erase_subset (hpending hleft)
    rw [List.filter_nil, List.append_nil] at hwaiting
    exact ⟨writer, hnot, hwaiting.trans hrest⟩

/-- A connect response that is matched to a call answers its request. -/
theorem Exchanging.told_of_matched (h : s.Exchanging x) (hwaits : s.AnswersWaiting x action)
    (hmatched : .matched (.reply key) ∈ s.eventsAt action) (hmay : s.MayConnect key)
    (hbefore : s.roster.Told key ((s.exchange x action).Answers key)) :
    (s.act action).roster.Told key ((s.exchange x action).Answers key) := by
  obtain ⟨rfl, hgoesOn, hstage, frame, hframe, htaken⟩ := exists_frame_of_matched hmatched
  have hresponse : frame.isConnectResponse := by
    rw [takeMatch_fst, accepts_roster] at htaken
    have haccepts : s.accepts frame (.reply key) := List.find?_some htaken
    obtain ⟨reply, hreply, htakes⟩ := (Option.any_eq_true ..).mp haccepts
    rw [Bool.and_eq_true, beq_iff_eq] at htakes
    rw [Frame.isConnectResponse, ← htakes.1, ReplyHandler.frameType, hmay reply hreply,
      beq_self_eq_true]
  have hheard : s.heard? (.turn .reader) = some frame :=
    heard_iff.mpr ⟨rfl, hgoesOn, hstage, hframe, hresponse⟩
  obtain ⟨next, hact, hroster⟩ := exists_handOver hgoesOn hstage hframe
  rcases h.taken hresponse (hwaits frame hheard) with ⟨hnone, -⟩ | ⟨other, -, hnext, hother, -⟩
  · rw [hnone] at htaken
    cases htaken
  obtain rfl : other = key := by simpa [hother] using htaken
  have hanswers : (s.exchange x (.turn .reader)).Answers other frame.payload := by
    obtain ⟨⟨request, asker⟩, hasked, rfl⟩ := Option.bind_eq_some_iff.mp hnext
    refine ⟨x.answered.length, request, ?_, ?_⟩
    · rw [exchange, asking_reader, List.append_nil]
      exact hasked
    · rw [exchange, hheard]
      exact List.getElem?_concat_length
  rw [hact]
  refine next.releaseUnused_moves.told (by simp) (by simp) ?_
  rw [hroster, htaken]
  refine ⟨fun payload _ hdecoding => ?_, hbefore.outcome⟩
  rw [← (ReaderStage.decoding.inj hdecoding).2]
  exact hanswers

/-- Whatever is done with a link, who waits for a connect response hears nothing but the answer to
its own request. -/
theorem Exchanging.told_act (h : s.Exchanging x) (hwaits : s.AnswersWaiting x action)
    (hmay : (s.act action).MayConnect key) :
    (s.act action).roster.Told key ((s.exchange x action).Answers key) := by
  have hmay := mayConnect_of_act hmay
  have hbefore : s.roster.Told key ((s.exchange x action).Answers key) :=
    (h.told key hmay).mono fun payload hanswers => hanswers.exchange s action
  by_cases hmatched : .matched (.reply key) ∈ s.eventsAt action
  · exact h.told_of_matched hwaits hmatched hmay hbefore
  by_cases hoffered : ∀ other, .offered other ∉ s.eventsAt action
  · exact (s.act_moves action).told hoffered hmatched hbefore
  -- A call that brings the handler of a reply does nothing else.
  cases action with
  | call label call hplain =>
    dsimp only [act, start]
    rw [roster_addTask]
    exact ⟨hbefore.decoding, hbefore.outcome⟩
  | reply label frame kind =>
    dsimp only [act, start]
    rw [roster_addTask]
    exact hbefore.openReply kind rfl rfl rfl
  | _ => exact absurd (offered_notMem_eventsAt rfl) hoffered

/-! ### Runs -/

/-- No more answers come than there are requests. -/
theorem Exchanging.behind_act (h : s.Exchanging x) (hpeer : s.PeerAnswers x action) :
    (s.exchange x action).answered.length ≤ (s.exchange x action).asked.length := by
  have hbehind := h.behind
  unfold exchange
  rw [List.length_append, List.length_append]
  cases hheard : s.heard? action with
  | none =>
    rw [Option.toList_none, List.map_nil, List.length_nil]
    omega
  | some frame =>
    have hfew := hpeer frame hheard
    have hreceived := h.wired.received.length_le
    rw [List.length_map] at hreceived
    rw [Option.toList_some, List.map_singleton, List.length_singleton]
    omega

/-- Whatever is done with a link, it stands to its peer as it should. -/
theorem Exchanging.act (h : s.Exchanging x) (hasks : s.AsksForConnect action)
    (hpeer : s.PeerAnswers x action) (hwaits : s.AnswersWaiting x action) :
    (s.act action).Exchanging (s.exchange x action) where
  asks := h.asks.act hasks
  wired := h.wired.act action
  wire := by
    obtain ⟨log, hwire⟩ := h.wire
    exact ⟨_, (s.act_moves action).wireOrder hwire⟩
  behind := h.behind_act hpeer
  order := by
    cases hheard : s.heard? action with
    | some frame => exact h.order_of_heard hheard hwaits
    | none =>
      rcases s.registers_cases action with hnone | ⟨t, purpose, frame, handler, rfl, hjoins⟩
      · exact h.order_of_asking hheard hnone
      · obtain ⟨hstage, hhead, hone⟩ := hjoins
        exact h.order_of_registered hheard hstage hhead hone
  told _ hmay := h.told_act hwaits hmay

/-- On a fresh link nothing was exchanged. -/
theorem exchanging_fresh (config : Config) : (fresh config).Exchanging {} where
  asks := asks_fresh config
  wired := isWired_fresh config
  wire := ⟨[], Roster.wireOrder_fresh⟩
  behind := Nat.le_refl 0
  order := ⟨none, by simp, .slnil⟩
  told _ _ := ⟨fun _ _ hdecoding => (by cases hdecoding), fun _ _ hreply => (by cases hreply)⟩

/-- Requests and answers stay in step as long as the peer answers and calls wait. -/
theorem Exchanging.run {actions : List Action} (h : s.Exchanging x)
    (hasks : s.Along (fun s _ action => s.AsksForConnect action) x actions)
    (hpeer : s.Along PeerAnswers x actions) (hwaits : s.Along AnswersWaiting x actions) :
    (actions.foldl Link.act s).Exchanging (s.exchanges x actions) := by
  induction actions generalizing s x with
  | nil => exact h
  | cons action actions ih =>
    exact ih (h.act hasks.1 hpeer.1 hwaits.1) hasks.2 hpeer.2 hwaits.2

end BeeProtocol.Link
