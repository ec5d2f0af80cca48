import BeeProtocol.Proofs.Link.Run
import BeeProtocol.Proofs.Link.Turns

/-!
# Journals

Every action on a link is a few moves of its roster. What is remembered of them can be read off the
link before the action, and a run leaves a journal of it.
-/

namespace BeeProtocol

namespace Link

/-! ### What is remembered -/

/-- What is remembered of a turn of the reader that is not ended in it. -/
def readerEvents (s : Link) : ReaderStage → List Event
  | .reading =>
    match s.codec.decode s.reader.buffer with
    | (none, _) => []
    | (some frame, _) => (s.pending.find? (s.accepts frame)).toList.map .matched
  | .decoding (.statement key) _ => [.fed key]
  | .storing key _ => [.fed key]
  | _ => []

/-- What is remembered of a turn. -/
def turnEvents (s : Link) : Actor → List Event
  | .reader => if s.reader.isAborted then [] else s.readerEvents s.reader.stage
  | .task t =>
    match s.tasks[t]? with
    | some task => if task.isAborted then [] else s.callEvents t task.stage
    | none => []

/-- What is remembered of an action. -/
def eventsAt (s : Link) : Action → List Event
  | .turn actor => s.turnEvents actor
  | .call _ (.send _ (some (.reply key))) _ => [.offered key]
  | .reply _ _ _ => [.offered s.replies.length]
  | .next key =>
    match s.channels[key]? with
    | some c => [.gained key c.take.1.toOption.toList]
    | none => []
  | _ => []

/-- What is remembered of a run. -/
def journal (s : Link) : List Action → List Event
  | [] => []
  | action :: actions => s.eventsAt action ++ (s.act action).journal actions

/-- A call registers handlers, writes frames and takes rows. -/
theorem callEvents_cases {s : Link} {t : Nat} {stage : Stage} {event : Event}
    (h : event ∈ s.callEvents t stage) :
    (∃ handler, event = .registered t handler) ∨ event = .encoded t ∨
      ∃ key rows, event = .gained key rows := by
  unfold callEvents at h
  split at h
  · rename_i handler
    split at h
    · exact .inl ⟨handler, List.mem_singleton.mp h⟩
    · cases h
  · split at h
    · split at h
      · exact .inr (.inl (List.mem_singleton.mp h))
      · cases h
    · cases h
  · split at h
    · exact .inr (.inr ⟨_, _, List.mem_singleton.mp h⟩)
    · cases h
  · cases h

/-- The reader takes handlers off the queue and feeds the statement whose handler it holds. -/
theorem readerEvents_cases {s : Link} {stage : ReaderStage} {event : Event}
    (h : event ∈ s.readerEvents stage) :
    (∃ handler, event = .matched handler) ∨
      ∃ key, event = .fed key ∧ stage.held? = some (.statement key) := by
  unfold readerEvents at h
  split at h
  · split at h
    · cases h
    · obtain ⟨handler, -, rfl⟩ := List.mem_map.mp h
      exact .inl ⟨handler, rfl⟩
  · exact .inr ⟨_, List.mem_singleton.mp h, rfl⟩
  · exact .inr ⟨_, List.mem_singleton.mp h, rfl⟩
  · cases h

/-- What is remembered of a turn of a call, or of the reader if it was not told to end. -/
theorem turnEvents_cases {s : Link} {actor : Actor} {event : Event}
    (h : event ∈ s.turnEvents actor) :
    (∃ t stage, actor = .task t ∧ event ∈ s.callEvents t stage) ∨
      actor = .reader ∧ s.reader.isAborted = false ∧ event ∈ s.readerEvents s.reader.stage := by
  cases actor with
  | reader =>
    dsimp only [turnEvents] at h
    split at h
    · cases h
    · rename_i hgoesOn
      exact .inr ⟨rfl, by simpa using hgoesOn, h⟩
  | task t =>
    dsimp only [turnEvents] at h
    split at h
    · split at h
      · cases h
      · exact .inl ⟨t, _, rfl, h⟩
    · cases h

variable (s : Link)

/-! ### The reader -/

/-- A link and its roster agree on who takes a frame. -/
theorem accepts_roster (frame : Frame) : s.roster.accepts frame = s.accepts frame := by
  funext handler
  cases handler <;> rfl

/-- A reader that cannot read more closes the link. -/
theorem endOfStream_moves (hreading : s.roster.reading = .reading) :
    s.roster.Moves [] (s.shutdown.setReader .stopped).roster := by
  have hheld : ReaderStage.stopped.held? = s.roster.reading.held? := by rw [hreading]; rfl
  have hclose := Roster.Move.close .stopped s.roster.shut.isAborted hheld (.inl rfl)
  rw [roster_setReader, roster_shutdown]
  exact hclose.moves

/-- A reader that finds no frame waits, reads more or closes the link. -/
theorem readMore_moves (hreading : s.roster.reading = .reading) :
    s.roster.Moves [] s.readMore.1.roster := by
  unfold readMore
  split
  · exact s.endOfStream_moves hreading
  · split
    · exact .nil s.roster
    · exact .nil s.roster
    · exact .nil s.roster
    · rename_i inbound _
      exact endOfStream_moves { s with inbound := inbound } hreading

/-- A reader that has a frame takes the handler for it off the queue, if there is one. -/
theorem takeFrame_moves (frame : Frame) (hreading : s.roster.reading = .reading)
    (hgoesOn : s.roster.isAborted = false) :
    s.roster.Moves ((s.pending.find? (s.accepts frame)).toList.map .matched)
      (match s.takeMatch frame with
        | (none, s) => (s, true)
        | (some handler, s) => (s.setReader (.decoding handler frame.payload), true)).1.roster := by
  unfold takeMatch
  cases hfind : s.pending.find? (s.accepts frame) with
  | none => exact .nil s.roster
  | some handler =>
    rw [← accepts_roster] at hfind
    exact (Roster.Move.take hreading hgoesOn hfind).moves

/-- Taking a frame matches its handler, or closes the link. -/
theorem readFrame_moves (hreading : s.roster.reading = .reading)
    (hgoesOn : s.roster.isAborted = false) :
    s.roster.Moves (s.readerEvents .reading) s.readFrame.1.roster := by
  unfold readFrame readerEvents
  rcases s.codec.decode s.reader.buffer with ⟨frame, buffer⟩
  cases frame with
  | none => exact readMore_moves { s with reader := { s.reader with buffer := buffer } } hreading
  | some frame =>
    exact takeFrame_moves { s with reader := { s.reader with buffer := buffer } } frame hreading
      hgoesOn

/-- A reader that is done with a payload of a statement puts the handler back, or forgets it. -/
theorem putBack_moves {key : Nat} {row : Row} (hreading : s.roster.reading = .storing key row)
    (hgoesOn : s.roster.isAborted = false) : s.roster.Moves [] (s.putBack key).roster := by
  have hheld : s.roster.reading.held? = some (.statement key) := by rw [hreading]; rfl
  have hforget : s.roster.Moves []
      { s.roster.letGo (.statement key) with reading := .reading } :=
    (Roster.Move.forgetStatement .reading hheld Channel.isLost_finish rfl).moves
  unfold putBack
  dsimp only
  split
  · rename_i hdone
    have hsame : s.roster.letGo (.statement key) = s.roster := s.roster.letGo_of_isDone hdone
    rw [hsame] at hforget
    exact hforget
  · unfold requeue
    split
    · rw [roster_letGo]
      exact hforget
    · rename_i hopen
      exact (Roster.Move.putBack hreading hgoesOn (Bool.eq_false_iff.mpr hopen)).moves

/-- The handler that the reader holds takes the payload. -/
theorem decodePayload_moves {handler : Handler} {payload : List UInt8}
    (hreading : s.roster.reading = .decoding handler payload)
    (hgoesOn : s.roster.isAborted = false) :
    s.roster.Moves (s.readerEvents (.decoding handler payload))
      (s.decodePayload handler payload).roster := by
  cases handler with
  | reply key =>
    dsimp only [decodePayload]
    rw [roster_setReader, roster_changeReply]
    exact (Roster.Move.answer hreading hgoesOn).moves
  | statement key =>
    let heard := s.changeChannel key fun c => (c.receive payload).1
    have hheard : heard.roster = s.roster.change key fun c => (c.receive payload).1 :=
      s.roster_changeChannel key _
    have hgoesOn' : heard.reader.isAborted = false := by
      have haborted := congrArg Roster.isAborted hheard
      exact haborted.trans hgoesOn
    have hstored (row : Row)
        (hlive : ∀ c, s.channels[key]? = some c → (c.receive payload).1.isDone = false) :
        s.roster.Moves [.fed key] { heard.roster with reading := .storing key row } := by
      rw [hheard]
      exact (Roster.Move.hear row hreading hgoesOn hlive).moves
    unfold decodePayload
    dsimp only
    split
    · rename_i row hrow
      refine hstored row fun c hc => ?_
      have hleft : (c.receive payload).2 = some row := by simpa [hc] using hrow
      exact Channel.isDone_of_receive_row hleft
    · have hchannel : heard.channels[key]? =
          (s.channels[key]?).map fun c => (c.receive payload).1 := by
        have hchannels := congrArg Roster.channels hheard
        change heard.channels = _ at hchannels
        rw [hchannels, Roster.change, List.getElem?_modify_eq]
        rfl
      cases hdone : (heard.channels[key]?).any (·.isDone) with
      | true =>
        obtain ⟨c, hc, hover⟩ : ∃ c, s.channels[key]? = some c ∧ (c.receive payload).1.isDone := by
          rw [hchannel, Option.any_map, Option.any_eq_true] at hdone
          exact hdone
        have hended : (heard.putBack key).roster = { heard.roster with reading := .reading } := by
          unfold putBack
          dsimp only [setReader]
          rw [if_pos hdone]
          rfl
        change Roster.Moves _ _ (heard.putBack key).roster
        rw [hended, hheard]
        exact (Roster.Move.hearEnd hreading hgoesOn hc hover).moves
      | false =>
        -- Nothing comes of the row, which stands for the time until the handler is put back.
        let row : Row := ⟨[], []⟩
        have hlive (c : Channel) (hc : s.channels[key]? = some c) :
            (c.receive payload).1.isDone = false := by
          simpa [hchannel, hc] using hdone
        exact (hstored row hlive).append
          (putBack_moves (heard.setReader (.storing key row)) rfl hgoesOn')

/-- The reader tries to store a row. -/
theorem storeRow_moves {key : Nat} {row : Row} (hreading : s.roster.reading = .storing key row)
    (hgoesOn : s.roster.isAborted = false) :
    s.roster.Moves (s.readerEvents (.storing key row)) (s.storeRow key row).1.roster := by
  let stored := s.changeChannel key fun c => (c.store row).1
  have hstored : stored.roster = s.roster.change key fun c => (c.store row).1 :=
    s.roster_changeChannel key _
  have hmove : s.roster.Moves [.fed key] stored.roster := by
    rw [hstored]
    exact (Roster.Move.store hreading hgoesOn).moves
  unfold storeRow
  dsimp only
  split
  · have hreading' : stored.roster.reading = .storing key row := by
      rw [hstored]
      exact hreading
    have hgoesOn' : stored.roster.isAborted = false := by
      rw [hstored]
      exact hgoesOn
    exact hmove.append (stored.putBack_moves hreading' hgoesOn')
  · exact hmove

/-- A reader that is ended lets go of the handler that it holds. -/
theorem dropReader_moves : s.roster.Moves [] s.dropReader.roster := by
  unfold dropReader
  dsimp only
  cases hreading : s.reader.stage with
  | reading => exact (Roster.Move.halt (r := s.roster) (congrArg _ hreading)).moves
  | stopped => exact (Roster.Move.halt (r := s.roster) (congrArg _ hreading)).moves
  | decoding handler payload =>
    have hheld : s.roster.reading.held? = some handler := congrArg ReaderStage.held? hreading
    dsimp only
    rw [roster_letGo]
    cases handler with
    | statement key =>
      exact (Roster.Move.forgetStatement .stopped hheld Channel.isLost_finish rfl).moves
    | reply key => exact (Roster.Move.forgetReply .stopped hheld rfl).moves
  | storing key row =>
    have hheld : s.roster.reading.held? = some (.statement key) :=
      congrArg ReaderStage.held? hreading
    dsimp only
    rw [roster_changeChannel]
    exact (Roster.Move.forgetStatement .stopped hheld Channel.isLost_letGo rfl).moves

/-! ### Any turn -/

/-- A turn of the reader is made of moves that the journal remembers. -/
theorem readerTurn_moves : s.roster.Moves (s.turnEvents .reader) s.readerTurn.1.roster := by
  unfold readerTurn turnEvents
  cases haborted : s.reader.isAborted with
  | true => exact s.dropReader_moves
  | false =>
    rw [if_neg (by simp), if_neg (by simp)]
    cases hreading : s.reader.stage with
    | reading => exact s.readFrame_moves hreading haborted
    | decoding handler payload => exact s.decodePayload_moves hreading haborted
    | storing key row => exact s.storeRow_moves hreading haborted
    | stopped => exact .nil s.roster

/-- A turn of a call is made of moves that the journal remembers. -/
theorem taskTurn_moves (t : Nat) :
    s.roster.Moves (s.turnEvents (.task t)) (s.taskTurn t).1.roster := by
  unfold taskTurn turnEvents
  cases htask : s.tasks[t]? with
  | none =>
    dsimp only
    rw [htask]
    exact .nil s.roster
  | some task =>
    have hstage : s.roster.stages[t]? = some task.stage := stage_of_task htask
    obtain ⟨label, stage, isAborted⟩ := task
    dsimp only at hstage ⊢
    rw [htask]
    dsimp only
    cases isAborted with
    | true => exact s.dropTask_moves t hstage
    | false =>
      cases stage with
      | called call => exact s.beginCall_moves t call hstage
      | sending purpose step => exact s.sendTurn_moves t hstage
      | replying key bound use deadline => exact s.replyTurn_moves t key bound use deadline hstage
      | closing =>
        rw [if_neg (by simp)]
        exact s.closing_moves t hstage
      | pulling key call => exact s.pullTurn_moves t key call hstage
      | watching key bound deadline => exact s.watchTurn_moves t key bound deadline hstage
      | pausing period due => exact s.pauseTurn_moves t period due hstage
      | ended => exact .nil s.roster

/-- The release of a link may close it, of which the journal remembers nothing. -/
theorem releaseUnused_moves : s.roster.Moves [] s.releaseUnused.roster := by
  rcases s.roster_releaseUnused with hroster | hroster
  · rw [hroster]
    exact .nil s.roster
  · rw [hroster]
    exact close_moves s.roster

/-- A turn of whoever it is is made of moves that the journal remembers. -/
theorem turnOf_moves (actor : Actor) :
    s.roster.Moves (s.turnEvents actor) (s.turnOf actor).roster := by
  let woken : Link := { s with ready := s.ready.erase actor }
  have hwhole (next : Link × Bool) (hturn : s.roster.Moves (s.turnEvents actor) next.1.roster) :
      s.roster.Moves (s.turnEvents actor)
        (if next.2 then { next.1 with ready := actor :: next.1.ready.erase actor }
          else next.1).releaseUnused.roster := by
    rw [← List.append_nil (s.turnEvents actor)]
    refine hturn.append ?_
    split
    · exact releaseUnused_moves { next.1 with ready := actor :: next.1.ready.erase actor }
    · exact next.1.releaseUnused_moves
  cases actor with
  | reader => exact hwhole woken.readerTurn woken.readerTurn_moves
  | task t => exact hwhole (woken.taskTurn t) (woken.taskTurn_moves t)

/-- A call that is cancelled quits. -/
theorem cancel_moves (label : Nat) : s.roster.Moves [] ((s.cancel? label).getD s).roster := by
  unfold cancel?
  cases s.tasks.findIdx? fun task => task.label == some label && !task.stage.isEnded with
  | none => exact .nil s.roster
  | some t =>
    cases htask : s.tasks[t]? with
    | none =>
      rw [Option.bind_some, htask]
      exact .nil s.roster
    | some task =>
      have hstage : s.roster.stages[t]? = some task.stage := stage_of_task htask
      rw [Option.bind_some, htask]
      exact (s.dropTask_moves t hstage).append (releaseUnused_moves { s.dropTask t task.stage with
        ready := (s.dropTask t task.stage).ready.filter (· != Actor.task t) })

/-! ### Any action -/

/-- A call without a handler begins. -/
theorem addTask_moves (label : Option Nat) {stage : Stage} (hplain : stage.IsPlain) :
    s.roster.Moves [] (s.addTask label stage).roster := by
  rw [roster_addTask]
  exact (Roster.Move.begin _ hplain).moves

/-- A call may bring the handler of a single reply that it does not wait for. -/
theorem call_moves (label : Nat) (call : LinkCall) (hplain : (Stage.called call).handler? = none) :
    s.roster.Moves (s.eventsAt (.call label call hplain)) (s.start label call).roster := by
  cases call with
  | send frame handler =>
    cases handler with
    | none => exact s.addTask_moves _ ⟨rfl, rfl, rfl, trivial, trivial⟩
    | some handler =>
      cases handler with
      | statement key => cases hplain
      | reply key =>
        have hbegun := Roster.Move.beginReply (r := s.roster) frame key []
        rw [List.append_nil] at hbegun
        unfold start
        rw [roster_addTask]
        exact hbegun.moves
  | _ => exact s.addTask_moves _ ⟨rfl, rfl, rfl, trivial, trivial⟩

/-- Whatever is done with a link is a few moves of its roster. -/
theorem act_moves (action : Action) : s.roster.Moves (s.eventsAt action) (s.act action).roster := by
  have hsame {next : Link} (h : next.roster = s.roster) : s.roster.Moves [] next.roster := by
    rw [h]
    exact .nil s.roster
  cases action with
  | arrive item => exact hsame (s.roster_arrive item)
  | setMode mode => exact hsame (s.roster_setMode mode)
  | call label call hplain => exact s.call_moves label call hplain
  | statement label frame id capacity bound =>
    dsimp only [act, start]
    rw [roster_addTask]
    exact (Roster.Move.beginStatement frame id capacity bound).moves
  | reply label frame kind =>
    dsimp only [act, start]
    rw [roster_addTask]
    exact (Roster.Move.beginReply frame s.replies.length [.ofKind kind]).moves
  | pull label channel pull bound =>
    dsimp only [act, startPull]
    split
    · exact .nil s.roster
    · exact s.addTask_moves _ ⟨rfl, rfl, rfl, trivial, trivial⟩
  | watch label reply bound =>
    exact s.addTask_moves _ ⟨rfl, rfl, rfl, trivial, trivial⟩
  | next channel =>
    dsimp only [act, next, eventsAt]
    cases hchannel : s.channels[channel]? with
    | none => exact .nil s.roster
    | some c =>
      dsimp only
      rw [roster_changeChannel, Roster.change_eq hchannel]
      exact (Roster.Move.giveOut hchannel
        (Channel.givesOut_of_entry c.take_entry c.take_bound c.take_rows)).moves
  | dropResponse channel =>
    dsimp only [act, dropResponse]
    rw [roster_changeChannel]
    exact (Roster.Move.drop channel).moves
  | cancel label => exact s.cancel_moves label
  | allocate count => exact hsame (s.roster_nextIds count)
  | markOpen => exact hsame s.roster_markOpen
  | giveAway => exact releaseUnused_moves { s with isHeld := false }
  | pass gap => exact hsame (s.roster_pass gap)
  | turn actor => exact s.turnOf_moves actor

/-- The journal of two parts of a run adds up. -/
theorem journal_append (before after : List Action) :
    s.journal (before ++ after) = s.journal before ++ (before.foldl act s).journal after := by
  induction before generalizing s with
  | nil => rfl
  | cons action before ih =>
    rw [List.cons_append, journal, ih, journal, List.append_assoc]
    rfl

/-- A run is as many moves as its journal tells. -/
theorem run_moves (actions : List Action) :
    s.roster.Moves (s.journal actions) (actions.foldl act s).roster := by
  induction actions generalizing s with
  | nil => exact .nil s.roster
  | cons action actions ih => exact (s.act_moves action).append (ih (s.act action))

end Link

end BeeProtocol
