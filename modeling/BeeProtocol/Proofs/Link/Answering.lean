import BeeProtocol.Proofs.Link.Asking

/-!
# Answering connect requests

Whoever waits for a connect response stands in the queue in the order in which the connect requests
were written. If a response that somebody takes answers a request whose call still waits, then the
first of those that wait is the one who asked, and so nobody hears the answer to somebody else.
-/

namespace BeeProtocol

/-- The first handler of a single reply that passes a test stands in front of the others. -/
theorem find_replyKeys (handlers : List Handler) (test : Nat → Bool) :
    handlers.find? (fun handler => handler.reply?.any test) = none ∧
        (replyKeys handlers).filter test = [] ∨
      ∃ key, handlers.find? (fun handler => handler.reply?.any test) = some (.reply key) ∧
        (replyKeys handlers).filter test =
          key :: (replyKeys (handlers.erase (.reply key))).filter test := by
  induction handlers with
  | nil => exact .inl ⟨rfl, rfl⟩
  | cons first handlers ih =>
    have hskip (hfirst : first.reply?.any test = false) :
        (first :: handlers).find? (fun handler => handler.reply?.any test) =
            handlers.find? (fun handler => handler.reply?.any test) ∧
          (replyKeys (first :: handlers)).filter test = (replyKeys handlers).filter test := by
      refine ⟨List.find?_cons_of_neg (by simp [hfirst]), ?_⟩
      cases first with
      | statement other => rfl
      | reply other => exact List.filter_cons_of_neg (by simpa [Handler.reply?] using hfirst)
    cases hfirst : first.reply?.any test with
    | true =>
      cases first with
      | statement other => cases hfirst
      | reply other =>
        refine .inr ⟨other, List.find?_cons_of_pos hfirst, ?_⟩
        rw [List.erase_cons_head]
        exact List.filter_cons_of_pos hfirst
    | false =>
      obtain ⟨hfind, hkeys⟩ := hskip hfirst
      rw [hfind, hkeys]
      refine ih.imp id fun ⟨key, hkey, hrest⟩ => ⟨key, hkey, ?_⟩
      have htest := List.find?_some hkey
      have hne : first ≠ .reply key := by
        rintro rfl
        rw [hfirst] at htest
        cases htest
      rw [List.erase_cons_tail (by simpa using hne), hrest]
      cases first with
      | statement other => rfl
      | reply other =>
        have hother : test other ≠ true := by simpa [Handler.reply?] using hfirst
        exact (congrArg _ (List.filter_cons_of_neg hother)).symm

namespace Exchanges

variable {x : Exchanges} {key : Nat}

/-- The single reply that the next connect response answers. -/
def next? (x : Exchanges) : Option Nat := (x.asked[x.answered.length]?).bind (·.2)

/-- The single replies that the connect responses after the next one answer. -/
def later (x : Exchanges) : List Nat := (x.asked.drop (x.answered.length + 1)).filterMap (·.2)

/-- The requests without an answer are the next one and those behind it. -/
theorem unanswered_eq (x : Exchanges) : x.unanswered = x.next?.toList ++ x.later := by
  unfold unanswered next? later
  rw [← List.drop_drop, List.drop_one]
  cases hrest : x.asked.drop x.answered.length with
  | nil =>
    have hget : x.asked[x.answered.length]? = none := by
      rw [← List.head?_drop, hrest, List.head?_nil]
    simp [hget]
  | cons asker rest =>
    have hget : x.asked[x.answered.length]? = some asker := by
      rw [← List.head?_drop, hrest, List.head?_cons]
    rw [hget, List.tail_cons, Option.bind_some]
    cases hasker : asker.2 with
    | none => rw [List.filterMap_cons_none hasker, Option.toList_none, List.nil_append]
    | some key => rw [List.filterMap_cons_some hasker, Option.toList_some, List.singleton_append]

/-- The requests without an answer are among those that were sent, in this order. -/
theorem unanswered_sublist (x : Exchanges) : x.unanswered.Sublist x.keys :=
  (List.drop_sublist ..).filterMap _

/-- The payloads that were read, each with the single reply that it answers. -/
def pairs (x : Exchanges) : List (Option Nat × List UInt8) :=
  (x.asked.map (·.2)).zip x.answered

/-- A payload answers a reply if it is paired with it. -/
theorem answers_iff {payload : List UInt8} :
    x.Answers key payload ↔ (some key, payload) ∈ x.pairs := by
  simp only [pairs, List.mem_iff_getElem?, List.getElem?_zip_eq_some, List.getElem?_map,
    Option.map_eq_some_iff]
  constructor
  · rintro ⟨n, frame, hasked, hanswered⟩
    exact ⟨n, ⟨_, hasked, rfl⟩, hanswered⟩
  · rintro ⟨n, ⟨⟨frame, asker⟩, hasked, rfl⟩, hanswered⟩
    exact ⟨n, frame, hasked, hanswered⟩

/-- What was heard stays heard. -/
theorem Answers.exchange {payload : List UInt8} (h : x.Answers key payload) (s : Link)
    (action : Link.Action) : (s.exchange x action).Answers key payload := by
  obtain ⟨n, frame, hasked, hanswered⟩ := h
  have hkept {α : Type} {items : List α} {item : α} (hget : items[n]? = some item)
      (more : List α) : (items ++ more)[n]? = some item := by
    rw [List.getElem?_append_left (List.getElem?_eq_some_iff.mp hget).1, hget]
  exact ⟨n, frame, hkept hasked _, hkept hanswered _⟩

end Exchanges

namespace Link

variable {s : Link} {x : Exchanges} {action : Action} {frame : Frame} {key : Nat}

/-! ### The course of the peer -/

/-- The peer answers connect requests that it has received, each of them once. -/
def PeerAnswers (s : Link) (x : Exchanges) (action : Action) : Prop :=
  ∀ frame ∈ s.heard? action, x.answered.length < s.received.length

/-- A connect response that somebody takes answers a request whose call still waits. -/
def AnswersWaiting (s : Link) (x : Exchanges) (action : Action) : Prop :=
  ∀ frame ∈ s.heard? action, (s.takeMatch frame).1 = none ∨
    ∃ key ∈ x.next?, .reply key ∈ s.pending ∧ s.accepts frame (.reply key)

instance (s : Link) (x : Exchanges) (action : Action) : Decidable (s.PeerAnswers x action) :=
  inferInstanceAs (Decidable (∀ frame ∈ s.heard? action, x.answered.length < s.received.length))

instance (s : Link) (x : Exchanges) (action : Action) : Decidable (s.AnswersWaiting x action) :=
  inferInstanceAs (Decidable (∀ frame ∈ s.heard? action, (s.takeMatch frame).1 = none ∨
    ∃ key ∈ x.next?, .reply key ∈ s.pending ∧ s.accepts frame (.reply key)))

/-! ### Who waits -/

/-- The connect responses that are waited for, in the order in which they are handed out. -/
def waiting (s : Link) : List Nat := (replyKeys s.pending).filter s.isConnect

/-- Who waits for a connect response has its handler in the queue. -/
theorem mem_waiting : key ∈ s.waiting ↔ .reply key ∈ s.pending ∧ s.isConnect key := by
  rw [waiting, List.mem_filter, mem_replyKeys]

/-- Connect responses are taken by those who wait for them, and by nobody else. -/
theorem accepts_of_isConnectResponse (s : Link) (hframe : frame.isConnectResponse)
    (handler : Handler) : s.accepts frame handler = handler.reply?.any s.isConnect := by
  have htype : frame.type = MessageKind.connectResponse.frameType := by
    simpa [Frame.isConnectResponse] using hframe
  cases handler with
  | statement other =>
    rw [accepts, htype]
    rfl
  | reply other =>
    have hkind (kind : MessageKind) :
        (kind.frameType == MessageKind.connectResponse.frameType) = (kind == .connectResponse) := by
      cases kind <;> rfl
    simp [accepts, isConnect, Handler.reply?, ReplyHandler.frameType, ReplyHandler.isCandidate,
      htype, hkind]

/-- A connect response goes to the first of those who wait for one. -/
theorem takeMatch_connectResponse (s : Link) (hframe : frame.isConnectResponse) :
    (s.takeMatch frame).1 = none ∧ s.waiting = [] ∨
      ∃ key, (s.takeMatch frame).1 = some (.reply key) ∧
        s.waiting = key :: (replyKeys (s.pending.erase (.reply key))).filter s.isConnect := by
  have haccepts : s.accepts frame = fun handler => handler.reply?.any s.isConnect :=
    funext (s.accepts_of_isConnectResponse hframe)
  rw [takeMatch_fst, accepts_roster, haccepts]
  exact find_replyKeys s.pending s.isConnect

/-- Whether a reply takes connect responses never changes while it waits. -/
theorem Asks.isConnect_act (h : s.Asks x) (hmem : .reply key ∈ s.pending) (action : Action) :
    (s.act action).isConnect key = s.isConnect key := by
  rw [Bool.eq_iff_iff]
  constructor
  · intro hconnect
    have hmay := mayConnect_of_act (mayConnect_of_isConnect hconnect)
    obtain ⟨stage, hstage, hclaims⟩ := (h.own key hmay).2 hmem
    exact isConnect_of_act (h.known_of_asks hstage (Stage.asks_of_claims hclaims)) hconnect
  · intro hconnect
    obtain ⟨reply, hreply, hkind⟩ := isConnect_iff.mp hconnect
    obtain ⟨reply', hreply', hkind'⟩ := kind_act hreply action
    exact isConnect_iff.mpr ⟨reply', hreply', by rw [hkind', hkind]⟩

/-- Who waits after an action has waited before it or has joined the queue. -/
theorem Asks.waiting_sublist (h : s.Asks x) {handlers : List Handler} {joined : List Nat}
    (hpart : handlers ⊆ s.pending)
    (hpending : (replyKeys (s.act action).pending).Sublist (replyKeys handlers ++ joined)) :
    (s.act action).waiting.Sublist
      ((replyKeys handlers).filter s.isConnect ++ joined.filter (s.act action).isConnect) := by
  have hsame : (replyKeys handlers).filter (s.act action).isConnect =
      (replyKeys handlers).filter s.isConnect :=
    List.filter_congr fun key hmem => h.isConnect_act (hpart (mem_replyKeys.mp hmem)) action
  have hfiltered := hpending.filter (s.act action).isConnect
  rwa [List.filter_append, hsame] at hfiltered

/-! ### What is registered and what is heard -/

/-- A call that gets the writer of an open link registers the handler that it carries. -/
theorem registeredIn_callEvents (s : Link) (t : Nat) (stage : Stage) :
    Event.registeredIn (s.callEvents t stage) = [] ∨ ∃ purpose frame handler,
      stage = .sending purpose (.inLine frame (some handler)) ∧ s.hasWriter t ∧
        Event.registeredIn (s.callEvents t stage) = [handler] := by
  unfold callEvents
  split
  · rename_i purpose frame handler
    split
    · rename_i hwriter
      rw [Bool.and_eq_true] at hwriter
      exact .inr ⟨purpose, frame, handler, rfl, hwriter.1, rfl⟩
    · exact .inl rfl
  · left
    split
    · split <;> rfl
    · rfl
  · left
    split <;> rfl
  · exact .inl rfl

/-- The reader registers nothing. -/
theorem registeredIn_reader (s : Link) : Event.registeredIn (s.turnEvents .reader) = [] := by
  refine List.map_eq_nil_iff.mpr (List.filterMap_eq_nil_iff.mpr fun event hmem => ?_)
  rcases turnEvents_cases hmem with ⟨t, stage, hactor, -⟩ | ⟨-, -, hmem⟩
  · cases hactor
  · rcases readerEvents_cases hmem with ⟨handler, rfl⟩ | ⟨key, rfl, -⟩ <;> rfl

/-- Only a call that gets the writer registers a handler, and no other one. -/
theorem registers_cases (s : Link) (action : Action) :
    Event.registeredIn (s.eventsAt action) = [] ∨ ∃ t purpose frame handler,
      action = .turn (.task t) ∧
        s.roster.stages[t]? = some (.sending purpose (.inLine frame (some handler))) ∧
          s.roster.line.head? = some t ∧ Event.registeredIn (s.eventsAt action) = [handler] := by
  cases action with
  | call label call hplain =>
    left
    cases call with
    | send frame handler => rcases handler with - | other | other <;> rfl
    | _ => rfl
  | next channel =>
    left
    dsimp only [eventsAt]
    split <;> rfl
  | turn actor =>
    cases actor with
    | reader => exact .inl s.registeredIn_reader
    | task t =>
      dsimp only [eventsAt, turnEvents]
      cases htask : s.tasks[t]? with
      | none => exact .inl rfl
      | some task =>
        have hstage : s.roster.stages[t]? = some task.stage := stage_of_task htask
        dsimp only
        split
        · exact .inl rfl
        · refine (s.registeredIn_callEvents t task.stage).imp id ?_
          rintro ⟨purpose, frame, handler, hcarries, hwriter, hone⟩
          exact ⟨t, purpose, frame, handler, rfl, by rw [hstage, hcarries],
            beq_iff_eq.mp hwriter, hone⟩
  | _ => exact .inl rfl

/-- A connect response is heard by a reader that looks for a frame. -/
theorem heard_iff : s.heard? action = some frame ↔
    action = .turn .reader ∧ s.reader.isAborted = false ∧ s.reader.stage = .reading ∧
      (s.codec.decode s.reader.buffer).1 = some frame ∧ frame.isConnectResponse := by
  constructor
  · intro h
    unfold heard? at h
    split at h
    · split at h
      · cases h
      · rename_i hgoesOn
        split at h
        · rename_i hstage
          obtain ⟨hframe, hresponse⟩ := Option.filter_eq_some_iff.mp h
          exact ⟨rfl, by simpa using hgoesOn, hstage, hframe, hresponse⟩
        · cases h
    · cases h
  · rintro ⟨rfl, hgoesOn, hstage, hframe, hresponse⟩
    simp [heard?, hgoesOn, hstage, hframe, Option.filter, hresponse]

/-- A handler is matched to a frame that is read. -/
theorem exists_frame_of_matched {handler : Handler} (h : .matched handler ∈ s.eventsAt action) :
    action = .turn .reader ∧ s.reader.isAborted = false ∧ s.reader.stage = .reading ∧
      ∃ frame, (s.codec.decode s.reader.buffer).1 = some frame ∧
        (s.takeMatch frame).1 = some handler := by
  cases action with
  | turn actor =>
    rcases turnEvents_cases h with ⟨t, stage, -, hmem⟩ | ⟨rfl, hgoesOn, hmem⟩
    · rcases callEvents_cases hmem with ⟨other, heq⟩ | heq | ⟨other, rows, heq⟩ <;> cases heq
    · cases hstage : s.reader.stage with
      | reading =>
        rw [hstage] at hmem
        unfold readerEvents at hmem
        dsimp only at hmem
        split at hmem
        · cases hmem
        · rename_i frame buffer hdecode
          obtain ⟨other, hfind, heq⟩ := List.mem_map.mp hmem
          obtain rfl := Event.matched.inj heq
          refine ⟨rfl, hgoesOn, rfl, frame, by rw [hdecode], ?_⟩
          rw [takeMatch_fst, accepts_roster]
          exact Option.mem_toList.mp hfind
      | decoding held payload =>
        rw [hstage] at hmem
        cases held <;> simp [readerEvents] at hmem
      | storing other row => simp [hstage, readerEvents] at hmem
      | stopped => simp [hstage, readerEvents] at hmem
  | call label call hplain =>
    cases call with
    | send frame held => rcases held with - | other | other <;> simp [eventsAt] at h
    | _ => simp [eventsAt] at h
  | next channel =>
    dsimp only [eventsAt] at h
    split at h <;> simp at h
  | _ => simp [eventsAt] at h

end Link

namespace Roster

/-- A handler is taken off the queue, if there is one, and a payload is to be decoded for it. -/
def handOver (r : Roster) (handler : Option Handler) (payload : List UInt8) : Roster :=
  handler.elim r fun handler =>
    { r with pending := r.pending.erase handler, reading := .decoding handler payload }

end Roster

namespace Link

variable {s : Link} {x : Exchanges} {action : Action} {frame : Frame} {key : Nat}

/-- A frame that is read is handed over to the handler that takes it. -/
theorem exists_handOver (hgoesOn : s.reader.isAborted = false) (hstage : s.reader.stage = .reading)
    (hframe : (s.codec.decode s.reader.buffer).1 = some frame) :
    ∃ next : Link, s.act (.turn .reader) = next.releaseUnused ∧
      next.roster = s.roster.handOver (s.takeMatch frame).1 frame.payload := by
  let woken : Link := { s with ready := s.ready.erase .reader }
  obtain ⟨after, hturn, hafter⟩ : ∃ after, woken.readerTurn = (after, true) ∧
      after.roster = s.roster.handOver (s.takeMatch frame).1 frame.payload := by
    unfold readerTurn
    rw [if_neg (show ¬ woken.reader.isAborted by simp [woken, hgoesOn]),
      show woken.reader.stage = .reading from hstage]
    dsimp only [readFrame]
    cases hdecode : s.codec.decode s.reader.buffer with
    | mk read buffer =>
      rw [hdecode] at hframe
      obtain rfl : read = some frame := hframe
      rw [show woken.codec.decode woken.reader.buffer = (some frame, buffer) from hdecode]
      dsimp only
      let left : Link := { woken with reader := { woken.reader with buffer := buffer } }
      have hfst : (s.takeMatch frame).1 = s.pending.find? (s.accepts frame) := by
        rw [takeMatch_fst, accepts_roster]
        rfl
      have hsame : left.pending.find? (left.accepts frame) =
          s.pending.find? (s.accepts frame) := rfl
      rw [hfst]
      unfold takeMatch
      rw [hsame]
      cases s.pending.find? (s.accepts frame) with
      | none => exact ⟨left, rfl, rfl⟩
      | some handler => exact ⟨_, rfl, rfl⟩
  refine ⟨{ after with ready := .reader :: after.ready.erase .reader }, ?_, hafter⟩
  dsimp only [act, turnOf]
  rw [hturn]
  rfl

/-- The release of a link brings nobody into the queue. -/
theorem pending_releaseUnused (s : Link) : s.releaseUnused.pending.Sublist s.pending := by
  change s.releaseUnused.roster.pending.Sublist s.roster.pending
  rcases s.roster_releaseUnused with hroster | hroster
  · rw [hroster]
  · obtain ⟨isAborted, hstop, -⟩ := s.roster.shut.stop_eq
    rw [hroster, hstop]
    exact s.roster.shut_pending_sublist

end Link

end BeeProtocol
