import BeeProtocol.Proofs.Link.Hearing
import BeeProtocol.Proofs.Link.Lifecycle

/-!
# Own replies

A call that waits for a connect response gets the one that its peer sent in answer to its own
request, for any number of calls and whatever became of earlier ones, as long as no response to a
request that nobody waits for any more is handed to somebody else.
-/

namespace BeeProtocol.Link

variable {s : Link}

/-! ### What a call ends with -/

/-- Nothing comes of marking a link open. -/
theorem sameOutcome_markOpen (s : Link) : s.SameOutcome s.markOpen := by
  rw [markOpen_eq]
  exact ⟨rfl, rfl, rfl⟩

/-- Starting to send pings ends no call. -/
theorem finished_startKeepAlive {t : Nat} {label : Option Nat}
    (h : (s.tasks.map (·.label))[t]? = some label) :
    s.startKeepAlive.finished = s.finished ∧
      (s.startKeepAlive.tasks.map (·.label))[t]? = some label := by
  rcases s.startKeepAlive_cases with ⟨-, hsame⟩ | ⟨period, -, hstarted⟩
  · rw [hsame]
    exact ⟨rfl, h⟩
  · have hsame := SameOutcome.trans
      (.of_wakes (s.wakes_addTask none (.called (.keepAlive period))) (.refl _))
      (sameOutcome_stopKeepAlive (s.addTask none (.called (.keepAlive period))))
    rw [hstarted]
    refine ⟨hsame.finished, ?_⟩
    change (Link.tasks (stopKeepAlive _) |>.map (·.label))[t]? = _
    rw [hsame.labels, List.map_append,
      List.getElem?_append_left (List.getElem?_eq_some_iff.mp h).1, h]

end BeeProtocol.Link

namespace BeeProtocol

/-- What a call ends with that waits for a message. -/
def ReplyUse.result : ReplyUse → Message → LinkResult
  | request, message => .message message
  | handshake, .connectResponse (.rejected error) =>
    if error.code = 0 then .ok else .failed (.application error)
  | handshake, _ => .ok

/-- What a call ends with that waits for a reply, as far as the reply has come. -/
def ReplyUse.ending (use : ReplyUse) (bound : Duration) : Option (Outcome Message) → LinkResult
  | some (.ok message) => use.result message
  | some (.error reason) => .failed reason
  | none => .failed (Link.replyTimeout bound)

namespace Link

variable {s : Link} {x : Exchanges} {t key : Nat} {label : Option Nat} {bound : Duration}
  {use : ReplyUse} {deadline : Nat}

/-- What the reply under a key has come to. -/
def outcome? (s : Link) (key : Nat) : Option (Outcome Message) :=
  (s.replies[key]?).bind (·.promise.outcome)

/-- A handshake that has its reply reports what the reply says. -/
theorem finished_concludeHandshake (h : (s.tasks.map (·.label))[t]? = some label)
    (message : Message) : (s.concludeHandshake t message).finished =
      s.finished ++ label.toList.map fun label => (label, ReplyUse.handshake.result message) := by
  have hopened : (s.markOpen.startKeepAlive.conclude t .ok).finished =
      s.finished ++ label.toList.map fun label => (label, .ok) := by
    have hsame := s.sameOutcome_markOpen
    obtain ⟨hfinished, hlabel⟩ := finished_startKeepAlive (hsame.labels ▸ h)
    rw [finished_conclude hlabel, hfinished, hsame.finished]
  cases message with
  | connectResponse response =>
    cases response with
    | accepted => exact hopened
    | rejected error =>
      dsimp only [concludeHandshake, ReplyUse.result]
      split
      · exact hopened
      · exact finished_conclude h _
  | _ => exact hopened

/-- A call that waits for a reply goes on waiting, or ends with what has come of the reply. -/
theorem finished_replyTurn (h : (s.tasks.map (·.label))[t]? = some label) :
    (s.replyTurn t key bound use deadline).finished = s.finished ∧ s.outcome? key = none ∨
      (s.replyTurn t key bound use deadline).finished = s.finished ++
        label.toList.map fun label => (label, use.ending bound (s.outcome? key)) := by
  let left : Link := s.unregister (.reply key)
  have hconclude (result : LinkResult) : (left.conclude t result).finished =
      s.finished ++ label.toList.map fun label => (label, result) :=
    finished_conclude (s := left) h result
  unfold replyTurn
  rw [← outcome?]
  cases s.outcome? key with
  | none =>
    dsimp only
    split
    · exact .inr (hconclude _)
    · exact .inl ⟨rfl, rfl⟩
  | some outcome =>
    right
    cases outcome with
    | error reason => exact hconclude _
    | ok message =>
      cases use with
      | request => exact hconclude _
      | handshake => exact finished_concludeHandshake (s := left) h message

/-- The turn of a call that waits for a reply ends it as the outcome says, or reports nothing while
there is none. -/
theorem finished_act_replying
    (htask : s.tasks[t]? = some ⟨label, .replying key bound use deadline, false⟩) :
    (s.act (.turn (.task t))).finished = s.finished ∧ s.outcome? key = none ∨
      (s.act (.turn (.task t))).finished = s.finished ++
        label.toList.map fun label => (label, use.ending bound (s.outcome? key)) := by
  let woken : Link := { s with ready := s.ready.erase (.task t) }
  have hturn : woken.taskTurn t = (woken.replyTurn t key bound use deadline, false) := by
    unfold taskTurn
    rw [show woken.tasks[t]? = some ⟨label, .replying key bound use deadline, false⟩ from htask]
    rfl
  have hlabel : (woken.tasks.map (·.label))[t]? = some label := by
    rw [List.getElem?_map, show woken.tasks[t]? = _ from htask]
    rfl
  rw [(sameOutcome_turn hturn).finished]
  exact finished_replyTurn hlabel

/-- What a call ends with that waits for a connect response: the response that answers its own
request, or a failure without any. -/
inductive EndsOwn (s : Link) (x : Exchanges) (key : Nat) (bound : Duration) (use : ReplyUse) :
    LinkResult → Prop
  | answered {payload : List UInt8} {message : Message} (hanswers : x.Answers key payload)
    (hdecode : Message.decode .connectResponse payload = .ok message) :
    EndsOwn s x key bound use (use.result message)
  /-- The link was closed, or the response cannot be decoded. -/
  | lost {reason : ClientError} (houtcome : s.outcome? key = some (.error reason)) :
    EndsOwn s x key bound use (.failed reason)
  | late (houtcome : s.outcome? key = none) :
    EndsOwn s x key bound use (.failed (replyTimeout bound))

/-- A call that waits for a connect response goes on waiting, or ends as it should. -/
def GetsOwnReply (s : Link) (x : Exchanges) : Prop :=
  ∀ t label key bound use deadline,
    s.tasks[t]? = some ⟨label, .replying key bound use deadline, false⟩ → s.isConnect key →
      (s.act (.turn (.task t))).finished = s.finished ∧ s.outcome? key = none ∨
        ∃ result, s.EndsOwn x key bound use result ∧ (s.act (.turn (.task t))).finished =
          s.finished ++ label.toList.map fun label => (label, result)

/-- While requests and answers are in step every call gets its own reply. -/
theorem Exchanging.getsOwnReply (h : s.Exchanging x) : s.GetsOwnReply x := by
  intro t label key bound use deadline htask hconnect
  refine (finished_act_replying htask).imp id fun hends => ⟨_, ?_, hends⟩
  cases houtcome : s.outcome? key with
  | none => exact .late houtcome
  | some outcome =>
    cases outcome with
    | error reason => exact .lost houtcome
    | ok message =>
      obtain ⟨reply, hreply, hok⟩ := Option.bind_eq_some_iff.mp houtcome
      have hmay := mayConnect_of_isConnect hconnect
      obtain ⟨payload, hanswers, hdecode⟩ := (h.told key hmay).outcome reply message hreply hok
      rw [hmay reply hreply] at hdecode
      exact .answered hanswers hdecode

/-- A request that ends with a message ends with the answer to itself. -/
theorem GetsOwnReply.exists_answer (h : s.GetsOwnReply x) {label : Nat} {message : Message}
    (htask : s.tasks[t]? = some ⟨some label, .replying key bound .request deadline, false⟩)
    (hconnect : s.isConnect key) (hok : s.outcome? key = some (.ok message)) :
    ∃ payload, x.Answers key payload ∧ Message.decode .connectResponse payload = .ok message := by
  rcases h t (some label) key bound .request deadline htask hconnect with
    ⟨-, hnone⟩ | ⟨result, hends, hfinished⟩
  · rw [hok] at hnone
    cases hnone
  have hresult : result = .message message := by
    rcases finished_act_replying htask with ⟨-, hnone⟩ | hended
    · rw [hok] at hnone
      cases hnone
    · rw [hended, hok] at hfinished
      simpa [ReplyUse.ending, ReplyUse.result] using hfinished.symm
  cases hends with
  | answered hanswers hdecode =>
    obtain rfl := LinkResult.message.inj hresult
    exact ⟨_, hanswers, hdecode⟩
  | lost hlost => cases hresult
  | late hlate => cases hresult

/-- In a run in which only calls that write connect requests wait for connect responses and the peer
answers the requests that it receives one by one, every call that ends with a connect response ends
with the answer to its own request, unless the answer to a request that nobody waits for any more
comes while another call waits. The peer receives the requests in the order in which they are
written. -/
theorem ownReplies_runOf (config : Config) (actions : List Action)
    (hasks : (fresh config).Along (fun s _ action => s.AsksForConnect action) {} actions)
    (hpeer : (fresh config).Along PeerAnswers {} actions)
    (hwaits : (fresh config).Along AnswersWaiting {} actions) :
    (runOf config actions).received <+: ((fresh config).exchanges {} actions).asked.map (·.1) ∧
      (runOf config actions).GetsOwnReply ((fresh config).exchanges {} actions) := by
  have h := (exchanging_fresh config).run hasks hpeer hwaits
  exact ⟨h.wired.received, h.getsOwnReply⟩

/-- A call asks to connect and waits for the answer for a second. -/
def asksToConnect (label : Nat) : List Action :=
  .call label (.request (.connectRequest ⟨"", ""⟩) .connectResponse (.ofSeconds 1)) rfl ::
    List.replicate 5 (.turn (.task label))

/-- Time passes until the call gives up. -/
def givesUp (label : Nat) : List Action := [.pass 1000, .turn (.task label)]

/-- The peer rejects a connect request with a code. -/
def rejection (code : UInt8) : Frame := ⟨1, [1, 0, 0, 0, code, 0, 0, 0, 0]⟩

/-- The answer to a request comes late, and then another one is asked and answered. -/
def answeredLate : List Action :=
  asksToConnect 0 ++ givesUp 0 ++ reception [rejection 1] ++
    asksToConnect 1 ++ reception [rejection 2]

/-- The second call ends with the second answer, which is the one to its own request. -/
theorem ownReplies_answeredLate :
    (runOf (.defaults "" 0) answeredLate).received.length = 2 ∧
      ((runOf (.defaults "" 0) answeredLate).act (.turn (.task 1))).finished =
        (runOf (.defaults "" 0) answeredLate).finished ++
          [(1, .message (.connectResponse (.rejected ⟨2, ""⟩)))] ∧
      ∃ payload, ((fresh (.defaults "" 0)).exchanges {} answeredLate).Answers 1 payload ∧
        Message.decode .connectResponse payload = .ok (.connectResponse (.rejected ⟨2, ""⟩)) := by
  obtain ⟨-, howns⟩ := ownReplies_runOf (.defaults "" 0) answeredLate (by decide) (by decide)
    (by decide)
  have htask : (runOf (.defaults "" 0) answeredLate).tasks[1]? = some ⟨some 1,
      .replying 1 (.ofSeconds 1) .request (Clock.after 1000 (.ofSeconds 1)), false⟩ := rfl
  have hok : (runOf (.defaults "" 0) answeredLate).outcome? 1 =
      some (.ok (.connectResponse (.rejected ⟨2, ""⟩))) := by decide
  refine ⟨by decide, ?_, howns.exists_answer htask (by decide) hok⟩
  rcases finished_act_replying htask with ⟨-, hnone⟩ | hended
  · rw [hok] at hnone
    cases hnone
  · rw [hended, hok]
    rfl

/-- The answer to a request comes late, when another call already waits for its own. -/
def answeredToOther : List Action :=
  asksToConnect 0 ++ givesUp 0 ++ asksToConnect 1 ++ reception [rejection 1]

/-- A ping is written whose call waits for a connect response. -/
def awaitsStray (label : Nat) : List Action :=
  .reply label pingFrame .connectResponse :: List.replicate 4 (.turn (.task label))

/-- Somebody who has not asked for it takes the answer to the first of two requests. -/
def takenByStray : List Action :=
  awaitsStray 0 ++ asksToConnect 1 ++ asksToConnect 2 ++ reception [rejection 1, rejection 2]

/-- A call may end with the answer to another request if the answer to one that nobody waits for any
more comes while another call waits, or if somebody waits who has not asked. -/
theorem not_forall_getsOwnReply :
    (¬ ∀ (config : Config) (actions : List Action),
      (fresh config).Along (fun s _ action => s.AsksForConnect action) {} actions →
        (fresh config).Along PeerAnswers {} actions →
          (runOf config actions).GetsOwnReply ((fresh config).exchanges {} actions)) ∧
    ¬ ∀ (config : Config) (actions : List Action),
      (fresh config).Along PeerAnswers {} actions →
        (fresh config).Along AnswersWaiting {} actions →
          (runOf config actions).GetsOwnReply ((fresh config).exchanges {} actions) := by
  refine ⟨fun h => ?_, fun h => ?_⟩
  · have howns := h (.defaults "" 0) answeredToOther (by decide) (by decide)
    have htask : (runOf (.defaults "" 0) answeredToOther).tasks[1]? = some ⟨some 1,
        .replying 1 (.ofSeconds 1) .request (Clock.after 1000 (.ofSeconds 1)), false⟩ := rfl
    have hok : (runOf (.defaults "" 0) answeredToOther).outcome? 1 =
        some (.ok (.connectResponse (.rejected ⟨1, ""⟩))) := by decide
    obtain ⟨payload, hanswers, -⟩ := howns.exists_answer htask (by decide) hok
    -- Nothing was read in answer to the second request.
    have hread : ((fresh (.defaults "" 0)).exchanges {} answeredToOther).pairs =
        [(some 0, (rejection 1).payload)] := by decide
    rw [Exchanges.answers_iff, hread] at hanswers
    simp at hanswers
  · have howns := h (.defaults "" 0) takenByStray (by decide) (by decide)
    have htask : (runOf (.defaults "" 0) takenByStray).tasks[1]? = some ⟨some 1,
        .replying 1 (.ofSeconds 1) .request (Clock.after 0 (.ofSeconds 1)), false⟩ := rfl
    have hok : (runOf (.defaults "" 0) takenByStray).outcome? 1 =
        some (.ok (.connectResponse (.rejected ⟨2, ""⟩))) := by decide
    obtain ⟨payload, hanswers, hdecode⟩ := howns.exists_answer htask (by decide) hok
    have hread : ((fresh (.defaults "" 0)).exchanges {} takenByStray).pairs =
        [(some 1, (rejection 1).payload), (some 2, (rejection 2).payload)] := by decide
    rw [Exchanges.answers_iff, hread] at hanswers
    obtain rfl : payload = (rejection 1).payload := by simpa using hanswers
    revert hdecode
    decide

end Link

end BeeProtocol
