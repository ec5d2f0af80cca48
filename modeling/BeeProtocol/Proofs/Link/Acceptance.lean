import BeeProtocol.Proofs.Link.Handshaking

/-!
# Handshakes on a calm link

On a link on which nobody writes, nothing has arrived and nobody waits for a connect response, a
call that asks to connect can write its request, and it gets the reply that the peer sends then.
-/

namespace BeeProtocol.Link

/-- Whether an action can be done with a connection, which keeps its link to itself: nobody marks it
open from outside or brings handlers of replies. -/
def Action.isOfConnection : Action → Bool
  | .markOpen => false
  | action => !action.bringsReply

/-- What a connection does brings no reply of others. -/
theorem bringsReply_of_isOfConnection {action : Action} (h : action.isOfConnection) :
    action.bringsReply = false := by
  cases action with
  | markOpen => rfl
  | _ => simpa [Action.isOfConnection] using h

/-- A link in use by its owner on which nobody wants the writer, nothing is left of what has
arrived, and nobody waits for a connect response, but for the replies under some keys. -/
structure IsCalm (s : Link) (asked : List Nat) : Prop where
  /-- The link is not closed. -/
  isOpen : s.isClosed = false
  /-- The link has its owner. -/
  isHeld : s.isHeld
  /-- Nobody waits for the writer or has it. -/
  line : s.line = []
  /-- Everything that has arrived was read. -/
  inbound : s.inbound = []
  /-- The reader looks for a frame and has no bytes. -/
  reader : s.reader = ⟨[], false, .reading, false⟩
  /-- Nobody waits for a connect response but those who are named. -/
  waiting : s.waiting ⊆ asked

variable {s after : Link} {t key : Nat} {goesOn : Bool} {bound : Duration}
  {application url : String} {frame : Frame} {writer : Writer}

/-! ### Turns on a link that is held -/

/-- What a turn does to a link that is held, but for who can go on. -/
theorem exists_act_task (hturn : (s.woken t).taskTurn t = (after, goesOn)) (hheld : after.isHeld) :
    ∃ ready, s.act (.turn (.task t)) = { after with ready := ready } := by
  obtain ⟨ready, hreleased⟩ := exists_released hturn
  refine ⟨ready, hreleased.trans ?_⟩
  exact releaseUnused_of_isHeld _ hheld

/-- After its turn the reader may be woken again, and the link keeps its owner. -/
theorem exists_act_reader
    (hturn : ({ s with ready := s.ready.erase .reader } : Link).readerTurn = (after, goesOn))
    (hheld : after.isHeld) :
    ∃ ready, s.act (.turn .reader) = { after with ready := ready } := by
  dsimp only [act, turnOf]
  rw [hturn]
  cases goesOn with
  | true => exact ⟨_, releaseUnused_of_isHeld _ hheld⟩
  | false => exact ⟨after.ready, releaseUnused_of_isHeld _ hheld⟩

/-! ### Asking -/

/-- The link with one call more, which has opened a reply of its own. -/
def withAsker (s : Link) (label : Nat) (stage : Stage) : Link :=
  { s with
    tasks := s.tasks ++ [⟨some label, stage, false⟩]
    replies := s.replies ++ [.ofKind .connectResponse] }

/-- The link while such a call is alone with the writer and has come to a step. -/
def withSender (s : Link) (label : Nat) (bound : Duration) (step : SendStep)
    (pending : List Handler) (writer : Writer) (ready : List Actor) : Link :=
  { s.withAsker label (.sending (.reply s.replies.length bound .handshake) step) with
    line := [s.tasks.length]
    pending := pending
    writer := writer
    ready := ready }

/-- The call that asks is behind the others. -/
theorem withSender_task (s : Link) (label : Nat) (bound : Duration) (step : SendStep)
    (pending : List Handler) (writer : Writer) (ready : List Actor) :
    (s.withSender label bound step pending writer ready).tasks[s.tasks.length]? =
      some ⟨some label, .sending (.reply s.replies.length bound .handshake) step, false⟩ :=
  List.getElem?_concat_length

/-- The call joins the line for the writer. -/
theorem exists_begun (hheld : s.isHeld) (hline : s.line = [])
    (hbound : s.config.handshakeTimeout = .ok bound)
    (hframe : (Message.connectRequest ⟨url, application⟩).toFrame = .ok frame)
    (hsize : frame.payload.length ≤ s.codec.limit) (label : Nat) :
    ∃ ready, (s.act (.call label (.handshake application url) rfl)).act
        (.turn (.task s.tasks.length)) =
      s.withSender label bound (.inLine frame (some (.reply s.replies.length))) s.pending s.writer
        ready := by
  let called : Link :=
    { s with tasks := s.tasks ++ [⟨some label, .called (.handshake application url), false⟩] }
  obtain ⟨ready, hcalled⟩ := called.wake_eq (.task s.tasks.length)
  change ∃ last, (called.wake (.task s.tasks.length)).act (.turn (.task s.tasks.length)) = _
  rw [hcalled]
  have htask : ({ called with ready := ready } : Link).tasks[s.tasks.length]? =
      some ⟨some label, .called (.handshake application url), false⟩ :=
    List.getElem?_concat_length
  have hturn := (taskTurn_handshake htask hbound).trans
    (beginRequest_of_le _ s.tasks.length .connectResponse bound .handshake hframe hsize)
  obtain ⟨last, hact⟩ := exists_act_task hturn hheld
  refine ⟨last, hact.trans ?_⟩
  simp only [setStage, joinLine, addReply, woken, called, withSender, withAsker,
    Lists.modify_length, hline, List.nil_append]

/-- It gets the writer and registers the handler of its reply. -/
theorem exists_entered (hheld : s.isHeld) (hopen : s.isClosed = false) (label : Nat)
    (bound : Duration) (frame : Frame) (pending : List Handler) (writer : Writer)
    (ready : List Actor) :
    ∃ last, (s.withSender label bound (.inLine frame (some (.reply s.replies.length))) pending
        writer ready).act (.turn (.task s.tasks.length)) =
      s.withSender label bound (.holding frame) (pending ++ [.reply s.replies.length]) writer
        last := by
  let waiting :=
    (s.withSender label bound (.inLine frame (some (.reply s.replies.length))) pending writer ready)
  let woken := waiting.woken s.tasks.length
  let entered : Link := { woken with pending := pending ++ [.reply s.replies.length] }
  have hopen' : woken.isClosed = false := hopen
  have hregistered : woken.register (.reply s.replies.length) = entered :=
    if_neg (by rw [hopen']; nofun)
  have hturn : woken.taskTurn s.tasks.length = (entered.setStage s.tasks.length
      (.sending (.reply s.replies.length bound .handshake) (.holding frame)), true) := by
    rw [taskTurn_sending (s := waiting) (s.withSender_task ..)]
    dsimp only [sendTurn, enter]
    rw [show (waiting.woken s.tasks.length).hasWriter s.tasks.length = true from
        beq_self_eq_true _, show (waiting.woken s.tasks.length).isClosed = false from hopen]
    exact congrArg (fun next : Link => (next.setStage s.tasks.length _, true)) hregistered
  obtain ⟨last, hact⟩ := exists_act_task hturn hheld
  refine ⟨last, hact.trans ?_⟩
  simp only [setStage, entered, woken, waiting, Link.woken, withSender, withAsker,
    Lists.modify_length]

/-- If there is room in the out-buffer, it puts its frame there. -/
theorem exists_encoded (hheld : s.isHeld) (hsize : frame.payload.length ≤ s.codec.limit)
    (hroom : writer.outbox.length < Writer.boundary) (label : Nat) (bound : Duration)
    (pending : List Handler) (ready : List Actor) :
    ∃ last, (s.withSender label bound (.holding frame) pending writer ready).act
        (.turn (.task s.tasks.length)) =
      s.withSender label bound .flushing pending (writer.put frame.envelope) last := by
  let holding := s.withSender label bound (.holding frame) pending writer ready
  let woken := holding.woken s.tasks.length
  have hencoded : woken.codec.encode frame = .ok frame.envelope := if_pos hsize
  have hturn : woken.taskTurn s.tasks.length =
      (({ woken with writer := writer.put frame.envelope } : Link).setStage s.tasks.length
        (.sending (.reply s.replies.length bound .handshake) .flushing), true) := by
    rw [taskTurn_sending (s := holding) (s.withSender_task ..)]
    dsimp only [sendTurn]
    rw [if_pos (show (holding.woken s.tasks.length).writer.outbox.length < Writer.boundary from
      hroom), hencoded]
    rfl
  obtain ⟨last, hact⟩ := exists_act_task hturn hheld
  refine ⟨last, hact.trans ?_⟩
  simp only [setStage, woken, holding, Link.woken, withSender, withAsker, Lists.modify_length]

/-- A stream that takes everything lets it get there, also if older bytes have to go out first. -/
theorem exists_flushing (hheld : s.isHeld) (hsize : frame.payload.length ≤ s.codec.limit)
    (hflows : writer.mode = .flowing) (label : Nat) (bound : Duration) (pending : List Handler)
    (ready : List Actor) :
    ∃ turns writer' last, writer'.mode = .flowing ∧
      (List.replicate turns (.turn (.task s.tasks.length))).foldl act
          (s.withSender label bound (.holding frame) pending writer ready) =
        s.withSender label bound .flushing pending writer' last := by
  by_cases hroom : writer.outbox.length < Writer.boundary
  · obtain ⟨last, hact⟩ := exists_encoded hheld hsize hroom label bound pending ready
    exact ⟨1, writer.put frame.envelope, last, hflows, hact⟩
  · let holding := s.withSender label bound (.holding frame) pending writer ready
    let woken := holding.woken s.tasks.length
    let flushed := writer.give writer.outbox.length
    have hflush : writer.flush = (flushed, .done) := by
      unfold Writer.flush
      rw [hflows]
    have hturn : woken.taskTurn s.tasks.length = ({ woken with writer := flushed }, true) := by
      rw [taskTurn_sending (s := holding) (s.withSender_task ..)]
      dsimp only [sendTurn]
      rw [if_neg (show ¬ (holding.woken s.tasks.length).writer.outbox.length < Writer.boundary from
          hroom), show (holding.woken s.tasks.length).writer.flush = (flushed, .done) from hflush]
    obtain ⟨between, hact⟩ := exists_act_task hturn hheld
    have hempty : flushed.outbox.length < Writer.boundary := by simp [flushed, Writer.give]
    obtain ⟨last, hact'⟩ := exists_encoded hheld hsize hempty label bound pending between
    refine ⟨2, flushed.put frame.envelope, last, hflows, ?_⟩
    change (holding.act (.turn (.task s.tasks.length))).act (.turn (.task s.tasks.length)) = _
    rw [hact]
    exact hact'

/-- Its request is out, and it waits for the reply from then on. -/
theorem exists_sent (hheld : s.isHeld) (hflows : writer.mode = .flowing) (label : Nat)
    (bound : Duration) (pending : List Handler) (ready : List Actor) :
    ∃ writer' last, (s.withSender label bound .flushing pending writer ready).act
        (.turn (.task s.tasks.length)) =
      { s.withAsker label
          (.replying s.replies.length bound .handshake (Clock.after s.now bound)) with
        line := []
        pending := pending
        writer := writer'
        ready := last } := by
  let flushing := s.withSender label bound .flushing pending writer ready
  let woken := flushing.woken s.tasks.length
  let flushed := writer.give writer.outbox.length
  let sent : Link := { woken with line := [], writer := flushed }
  have hflush : writer.flush = (flushed, .done) := by
    unfold Writer.flush
    rw [hflows]
  have hleft : ({ woken with writer := flushed } : Link).leaveLine s.tasks.length = sent := by
    have hrest : [s.tasks.length].filter (· != s.tasks.length) = [] := by simp
    unfold leaveLine
    rw [show ({ woken with writer := flushed } : Link).line.filter (· != s.tasks.length) = [] from
      hrest]
  have hturn : woken.taskTurn s.tasks.length = (sent.setStage s.tasks.length
      (.replying s.replies.length bound .handshake (Clock.after s.now bound)), true) := by
    rw [taskTurn_sending (s := flushing) (s.withSender_task ..)]
    dsimp only [sendTurn]
    rw [show (flushing.woken s.tasks.length).writer.flush = (flushed, .done) from hflush]
    exact congrArg (fun next : Link => next.afterSend s.tasks.length _) hleft
  obtain ⟨last, hact⟩ := exists_act_task hturn hheld
  refine ⟨flushed, last, hact.trans ?_⟩
  simp only [setStage, sent, woken, flushing, Link.woken, withSender, withAsker,
    Lists.modify_length]

/-- On a calm link, a call can ask to connect, as soon as the stream takes everything. -/
theorem IsCalm.exists_asked (h : s.IsCalm []) (hbound : s.config.handshakeTimeout = .ok bound)
    (hframe : (Message.connectRequest ⟨url, application⟩).toFrame = .ok frame)
    (hsize : frame.payload.length ≤ s.codec.limit) (label : Nat) :
    ∃ actions : List Action, (∀ action ∈ actions, action.isOfConnection) ∧
      .call label (.handshake application url) rfl ∈ actions ∧
      ∃ writer ready, actions.foldl act s =
        { s.withAsker label
            (.replying s.replies.length bound .handshake (Clock.after s.now bound)) with
          pending := s.pending ++ [.reply s.replies.length]
          writer := writer
          ready := ready } := by
  let turn : Action := .turn (.task s.tasks.length)
  let flowing : Link := { s with writer := { s.writer with mode := .flowing } }
  have hmode : s.act (.setMode .flowing) = flowing := by
    dsimp only [act, setMode]
    split
    · rename_i hline
      cases hline.symm.trans h.line
    · rfl
  obtain ⟨begun, hbegun⟩ := exists_begun (s := flowing) h.isHeld h.line hbound hframe hsize label
  obtain ⟨entered, hentered⟩ := exists_entered (s := flowing) h.isHeld h.isOpen label bound frame
    s.pending flowing.writer begun
  obtain ⟨turns, writer, encoded, hflows, hflushing⟩ := exists_flushing (s := flowing) h.isHeld
    hsize (show flowing.writer.mode = .flowing from rfl) label bound
    (s.pending ++ [.reply s.replies.length]) entered
  obtain ⟨writer', last, hsent⟩ := exists_sent (s := flowing) h.isHeld hflows label bound
    (s.pending ++ [.reply s.replies.length]) encoded
  refine ⟨[.setMode .flowing, .call label (.handshake application url) rfl, turn, turn] ++
    List.replicate turns turn ++ [turn], ?_, by simp, writer', last, ?_⟩
  · intro action hmem
    simp only [List.mem_append, List.mem_cons, List.mem_replicate, List.not_mem_nil,
      or_false] at hmem
    rcases hmem with ((rfl | rfl | rfl | rfl) | ⟨-, rfl⟩) | rfl <;> rfl
  · have hholding : [.setMode .flowing, .call label (.handshake application url) rfl, turn,
        turn].foldl act s = flowing.withSender label bound (.holding frame)
          (s.pending ++ [.reply s.replies.length]) flowing.writer entered := by
      let call : Action := .call label (.handshake application url) rfl
      refine (congrArg (fun next : Link => ((next.act call).act turn).act turn) hmode).trans ?_
      exact (congrArg (·.act turn) hbegun).trans hentered
    rw [List.foldl_append, List.foldl_append, hholding, hflushing, List.foldl_cons, hsent, ← h.line]
    rfl

/-! ### Being answered -/

/-- A change of a reply changes replies and may wake calls. -/
theorem changeReply_eq (s : Link) (key : Nat) (change : ReplyHandler → ReplyHandler) :
    ∃ replies ready, s.changeReply key change = { s with replies := replies, ready := ready } := by
  obtain ⟨ready, hchange, -⟩ := s.wakes_changeReply key change
  exact ⟨_, ready, hchange⟩

/-- A frame arrives at a reader that has nothing else to read. -/
theorem exists_arrived (hreader : s.reader = ⟨[], false, .reading, false⟩)
    (hinbound : s.inbound = []) (frame : Frame) :
    ∃ last, s.act (.arrive (.bytes frame.envelope)) =
      { s with inbound := [.bytes frame.envelope], ready := last } := by
  let arrived : Link := { s with inbound := s.inbound ++ [.bytes frame.envelope] }
  obtain ⟨last, hwake⟩ := arrived.wake_eq .reader
  have hstage : arrived.reader.stage = .reading := congrArg Reader.stage hreader
  have harrives : s.act (.arrive (.bytes frame.envelope)) = arrived.wake .reader := by
    dsimp only [act]
    unfold arrive
    split
    · rename_i hnothing
      cases hnothing
    · dsimp only
      split
      · rfl
      · rename_i hother
        exact absurd hstage hother
  refine ⟨last, harrives.trans (hwake.trans ?_)⟩
  simp only [arrived, hinbound, List.nil_append]

/-- The reader takes in what has arrived. -/
theorem exists_read (hheld : s.isHeld) (hreader : s.reader = ⟨[], false, .reading, false⟩)
    {bytes : List UInt8} (hinbound : s.inbound = [.bytes bytes]) :
    ∃ last, s.act (.turn .reader) =
      { s with inbound := [], reader := ⟨bytes, false, .reading, false⟩, ready := last } := by
  let woken : Link := { s with ready := s.ready.erase .reader }
  have hturn : woken.readerTurn =
      ({ woken with inbound := [], reader := ⟨bytes, false, .reading, false⟩ }, true) := by
    dsimp only [readerTurn, readFrame, readMore, woken]
    rw [hreader, hinbound]
    rfl
  obtain ⟨last, hact⟩ := exists_act_reader hturn hheld
  exact ⟨last, hact⟩

/-- It takes the handler of a reply off the queue. -/
theorem exists_taken (hheld : s.isHeld) {frame : Frame}
    (hreader : s.reader = ⟨frame.envelope, false, .reading, false⟩)
    (hsize : frame.payload.length ≤ s.codec.limit)
    (hfind : s.pending.find? (s.accepts frame) = some (.reply key)) :
    ∃ last, s.act (.turn .reader) =
      { s with
        reader := ⟨[], false, .decoding (.reply key) frame.payload, false⟩
        pending := s.pending.erase (.reply key)
        ready := last } := by
  let woken : Link := { s with ready := s.ready.erase .reader }
  have hdecode : woken.codec.decode frame.envelope = (some frame, []) := by
    simpa using woken.codec.decode_envelope hsize []
  have hturn : woken.readerTurn =
      ({ woken with
        reader := ⟨[], false, .decoding (.reply key) frame.payload, false⟩
        pending := s.pending.erase (.reply key) }, true) := by
    have hreads : woken.readerTurn = woken.readFrame := by
      dsimp only [readerTurn, woken]
      rw [hreader]
      rfl
    rw [hreads]
    unfold readFrame
    rw [show woken.reader.buffer = frame.envelope from congrArg Reader.buffer hreader, hdecode]
    let buffered : Link := { woken with reader := { woken.reader with buffer := [] } }
    have hmatch : buffered.takeMatch frame = (some (.reply key),
        { buffered with pending := s.pending.erase (.reply key) }) := by
      unfold takeMatch
      rw [show buffered.pending.find? (buffered.accepts frame) = some (.reply key) from hfind]
    dsimp only
    rw [show ({ woken with reader := { woken.reader with buffer := [] } } : Link).takeMatch frame =
      _ from hmatch]
    dsimp only [setReader, buffered, woken]
    rw [hreader]
  obtain ⟨last, hact⟩ := exists_act_reader hturn hheld
  exact ⟨last, hact⟩

/-- The turn of the reader that decodes a payload for a reply hands it over and reads on. -/
theorem exists_answered (hheld : s.isHeld) {payload : List UInt8}
    (hreader : s.reader = ⟨[], false, .decoding (.reply key) payload, false⟩) :
    ∃ replies last, s.act (.turn .reader) =
      { s with
        reader := ⟨[], false, .reading, false⟩
        replies := replies
        ready := last } := by
  let woken : Link := { s with ready := s.ready.erase .reader }
  obtain ⟨replies, ready, hchanged⟩ :=
    woken.changeReply_eq key fun h => ((h.decode payload).complete).drop
  have hturn : woken.readerTurn =
      ({ woken with
        reader := ⟨[], false, .reading, false⟩
        replies := replies
        ready := ready }, true) := by
    have hreads : woken.readerTurn = (woken.decodePayload (.reply key) payload, true) := by
      dsimp only [readerTurn, woken]
      rw [hreader]
      rfl
    rw [hreads]
    dsimp only [decodePayload]
    rw [hchanged]
    dsimp only [setReader, woken]
    rw [hreader]
  obtain ⟨last, hact⟩ := exists_act_reader hturn hheld
  exact ⟨replies, last, hact⟩

/-- A frame that arrives is handed to the handler of a reply that takes it. -/
theorem exists_received (hheld : s.isHeld) (hreader : s.reader = ⟨[], false, .reading, false⟩)
    (hinbound : s.inbound = []) (hsize : frame.payload.length ≤ s.codec.limit)
    (hfind : s.pending.find? (s.accepts frame) = some (.reply key)) :
    ∃ pending replies ready, (reception [frame]).foldl act s =
        { s with pending := pending, replies := replies, ready := ready } ∧
      s.handedIn key (reception [frame]) = [frame.payload] := by
  let reads : Reader := ⟨frame.envelope, false, .reading, false⟩
  let holds : Reader := ⟨[], false, .decoding (.reply key) frame.payload, false⟩
  obtain ⟨woken, harrived⟩ := exists_arrived hreader hinbound frame
  let arrived : Link := { s with inbound := [.bytes frame.envelope], ready := woken }
  obtain ⟨reading, hread⟩ := exists_read (s := arrived) hheld hreader rfl
  let read : Link := { s with inbound := [], reader := reads, ready := reading }
  obtain ⟨taking, htaken⟩ := exists_taken (s := read) hheld rfl hsize hfind
  let taken : Link :=
    { s with
      inbound := []
      reader := holds
      pending := s.pending.erase (.reply key)
      ready := taking }
  obtain ⟨replies, last, hanswered⟩ := exists_answered (s := taken) hheld rfl
  refine ⟨s.pending.erase (.reply key), replies, last, ?_, ?_⟩
  · change (((s.act (.arrive (.bytes frame.envelope))).act (.turn .reader)).act (.turn .reader)).act
      (.turn .reader) = _
    rw [harrived, hread, show read.act (.turn .reader) = taken from htaken, hanswered]
    simp only [taken, ← hinbound, ← hreader]
  · have harriving : s.handedAt key (.arrive (.bytes frame.envelope)) = [] := rfl
    have hreading : arrived.handedAt key (.turn .reader) = [] := by
      dsimp only [handedAt, arrived]
      rw [hreader]
      rfl
    have hanswering : taken.handedAt key (.turn .reader) = [frame.payload] := if_pos rfl
    let first := s.act (.arrive (.bytes frame.envelope))
    let second := first.act (.turn .reader)
    let third := second.act (.turn .reader)
    change s.handedAt key (.arrive (.bytes frame.envelope)) ++
      (first.handedAt key (.turn .reader) ++ (second.handedAt key (.turn .reader) ++
        (third.handedAt key (.turn .reader) ++ []))) = _
    dsimp only [first, second, third]
    rw [harrived, hread, show read.act (.turn .reader) = taken from htaken, harriving,
      show ({ s with inbound := [.bytes frame.envelope], ready := woken } : Link).handedAt key
        (.turn .reader) = [] from hreading,
      hanswering]
    rfl

end BeeProtocol.Link
