import BeeProtocol.Proofs.Link.Dispatch
import BeeProtocol.Proofs.Link.OpenReader
import BeeProtocol.Proofs.Statement.Dropped

/-!
# Dropped responses on a link

One reader serves all statements. What comes for a statement whose response was dropped holds it up
for no longer than its own turns take: a row is discarded, also one that waited for a slot, and the
reader goes on with the next frame. So the reader of an open link waits for nobody but the caller of
a response that was not dropped.
-/

namespace BeeProtocol.Link

variable {s s' : Link} {log : List Event} {key : Nat} {action : Action}

/-- A turn of the reader with what it has of a statement adds no row, leaves everything else as it
was, and the reader goes on. -/
structure TakesOn (s s' : Link) (key : Nat) : Prop where
  /-- The link is open afterwards. -/
  isOpen : s'.isClosed = false
  /-- The reader can go on. -/
  ready : .reader ∈ s'.ready
  /-- What it has to read is the same. -/
  feed : s'.feed = s.feed
  /-- The statement has the same rows. -/
  rows : ∀ c : Channel, s.channels[key]? = some c →
    ∃ c' : Channel, s'.channels[key]? = some c' ∧ c'.rows = c.rows
  /-- The other statements are as they were. -/
  others : ∀ other, key ≠ other → s'.channels[other]? = s.channels[other]?
  /-- The replies are as they were. -/
  replies : s'.replies = s.replies

/-- The reader is done with a payload of a statement, whose handler is put back in front of the
queue unless the statement has ended. -/
structure Returns (s s' : Link) (key : Nat) : Prop where
  /-- The reader looks for the next frame. -/
  reading : s'.reader.stage = .reading
  /-- The handler is back, unless its statement has ended. -/
  pending : ∃ c : Channel, s'.channels[key]? = some c ∧
    s'.pending = if c.isDone then s.pending else .statement key :: s.pending

/-- The statement under a key, whose response was dropped, does not hold up the reader. -/
structure PassesBy (s : Link) (key : Nat) : Prop where
  /-- The response was dropped. -/
  dropped : s.roster.HasDropped key
  /-- The reader goes on as long as it has anything of the statement. -/
  awake : s.reader.stage.held? = some (.statement key) → .reader ∈ s.ready
  /-- A row that was to be stored, perhaps after a wait, is discarded. -/
  discards : ∀ row, s.isClosed = false → s.reader.stage = .storing key row →
    s.TakesOn (s.act (.turn .reader)) key ∧ s.Returns (s.act (.turn .reader)) key
  /-- A payload is dealt with in this turn or leaves a row, which is discarded in the next one. -/
  decodes : ∀ payload, s.isClosed = false → s.reader.stage = .decoding (.statement key) payload →
    s.TakesOn (s.act (.turn .reader)) key ∧
      (s.Returns (s.act (.turn .reader)) key ∨
        ∃ row, (s.act (.turn .reader)).reader.stage = .storing key row)
  /-- An abort, an error or an undecodable payload ends the statement, and its handler is not put
  back. -/
  ends : ∀ payload, s.isClosed = false → s.reader.stage = .decoding (.statement key) payload →
    StatementResponse.Ends payload →
      (s.act (.turn .reader)).reader.stage = .reading ∧
        (s.act (.turn .reader)).pending = s.pending ∧
          ∃ c, (s.act (.turn .reader)).channels[key]? = some c ∧ c.isDone
  /-- A statement that has ended has no handler any more. -/
  gone : ∀ c : Channel, s.channels[key]? = some c → c.isDone →
    .statement key ∉ s.pending ∧ s.reader.stage.held? ≠ some (.statement key)
  /-- On a closed link the reader ends with its next turn. -/
  halts : s.isClosed → (s.act (.turn .reader)).reader.stage.isStopped

/-- The reader of a link dispatches all frames that come. -/
structure Dispatches (s : Link) : Prop where
  /-- The next frame goes to the first handler in the queue that takes it. -/
  next : ∀ frame rest, s.isClosed = false → s.reader.stage = .reading →
    s.codec.decode s.reader.buffer = (some frame, rest) →
      .reader ∈ s.ready ∧ (s.act (.turn .reader)).feed = { s.feed with buffer := rest } ∧
        (s.act (.turn .reader)).reader.stage =
          (s.pending.find? (s.accepts frame)).elim .reading fun handler =>
            .decoding handler frame.payload
  /-- A reader that cannot go on has read all frames of what has arrived, or it waits for a slot of
  a response that was not dropped. -/
  atRest : s.isClosed = false → .reader ∉ s.ready →
    (s.reader.stage = .reading ∧ s.inbound = [] ∧ s.reader.isAtEnd = false ∧
        (s.codec.decode s.reader.buffer).1 = none) ∨
      ∃ key row c, s.reader.stage = .storing key row ∧ s.channels[key]? = some c ∧
        c.slot = .waiting ∧ c.isDropped = false

/-! ### Turns -/

/-- A turn of the reader that changes a channel but not its buffer. -/
theorem takesOn_of_change {change : Channel → Channel} {pending : List Handler}
    {stage : ReaderStage} (hopen : s.isClosed = false)
    (hroster : s'.roster =
      { s.roster.change key change with pending := pending, reading := stage })
    (hfeed : s'.feed = s.feed) (hready : .reader ∈ s'.ready)
    (hrows : ∀ c : Channel, s.channels[key]? = some c → (change c).rows = c.rows) :
    s.TakesOn s' key where
  isOpen := (congrArg Roster.isClosed hroster).trans hopen
  ready := hready
  feed := hfeed
  rows c hc := by
    refine ⟨change c, ?_, hrows c hc⟩
    rw [show s'.channels = s.channels.modify key change from congrArg Roster.channels hroster,
      List.getElem?_modify_eq, hc]
    rfl
  others other hother := by
    rw [show s'.channels = s.channels.modify key change from congrArg Roster.channels hroster,
      List.getElem?_modify]
    simp [hother]
  replies := congrArg Roster.replies hroster

/-- What a turn makes of the channel that it changes. -/
theorem channel_of_change {change : Channel → Channel} {pending : List Handler}
    {stage : ReaderStage} {c : Channel} (hc : s.channels[key]? = some c)
    (hroster : s'.roster =
      { s.roster.change key change with pending := pending, reading := stage }) :
    s'.channels[key]? = some (change c) := by
  rw [show s'.channels = s.channels.modify key change from congrArg Roster.channels hroster,
    List.getElem?_modify_eq, hc]
  rfl

/-- Who holds the handler of a dropped response goes on. -/
theorem awake_of_dropped (hworks : s.IsEnding ∨ s.AtWork) (hdropped : s.roster.HasDropped key)
    (hheld : s.reader.stage.held? = some (.statement key)) : .reader ∈ s.ready := by
  rcases hworks with hending | hwork
  · rcases hending.reader with hstopped | ⟨-, hready⟩
    · cases hstage : s.reader.stage <;> rw [hstage] at hstopped hheld
      case stopped => cases hheld
      all_goals cases hstopped
    · exact hready
  · refine hwork.alert.resolve_right fun ⟨hidles, _⟩ => ?_
    unfold Roster.Idles at hidles
    change s.roster.reading.held? = some (.statement key) at hheld
    cases hstage : s.roster.reading with
    | storing other row =>
      rw [hstage] at hidles hheld
      obtain rfl := Handler.statement.inj (Option.some.inj hheld)
      obtain ⟨c, hc, hwaits⟩ := hidles
      obtain ⟨c', hc', hdropped⟩ := hdropped
      obtain rfl := Option.some.inj (hc.symm.trans hc')
      exact absurd hdropped (by simp [hwaits.2])
    | decoding handler payload =>
      rw [hstage] at hidles
      exact hidles
    | _ =>
      rw [hstage] at hheld
      cases hheld

section Turns

variable (horder : s.InOrder log)

include horder

/-- A turn of a reader at work is one of its steps, and it stays ready if it reads on. -/
theorem turn_steps (hwork : s.AtWork) :
    Roster.ReaderStep s.codec s.roster s.feed (s.act (.turn .reader)).roster
        (s.act (.turn .reader)).feed s.readsOn ∧
      (s.readsOn → .reader ∈ (s.act (.turn .reader)).ready) := by
  obtain ⟨hturns, hready⟩ := hwork.turn horder.attended fun _ hheld =>
    (horder.exists_held hheld).imp fun _ => And.left
  exact ⟨hturns.step, hready⟩

/-- A row for a dropped response is discarded. -/
theorem discards_of_dropped (hwork : s.AtWork) (hdropped : s.roster.HasDropped key) {row : Row}
    (hstage : s.reader.stage = .storing key row) :
    s.TakesOn (s.act (.turn .reader)) key ∧ s.Returns (s.act (.turn .reader)) key := by
  obtain ⟨hstep, hready⟩ := turn_steps horder hwork
  obtain ⟨before, hbefore, hdrop⟩ := hdropped
  generalize hroster : (s.act (.turn .reader)).roster = r' at hstep
  generalize hfeed : (s.act (.turn .reader)).feed = f' at hstep
  generalize s.readsOn = goesOn at hstep hready
  have hreading : s.roster.reading = .storing key row := hstage
  cases hstep with
  | @store other row' c hstoring hc hstored =>
    obtain ⟨rfl, rfl⟩ := ReaderStage.storing.inj (hreading.symm.trans hstoring)
    obtain rfl := Option.some.inj (hbefore.symm.trans hc)
    refine ⟨takesOn_of_change hwork.isOpen hroster hfeed (hready rfl) fun c hc => ?_,
      congrArg Roster.reading hroster, _, channel_of_change hbefore hroster, ?_⟩
    · obtain rfl := Option.some.inj (hbefore.symm.trans hc)
      exact (Channel.store_of_isDropped hdrop row).2
    · rw [Channel.isDone_of_answer (before.store_answer row)]
      exact congrArg Roster.pending hroster
  | @stall other row' c hstoring hc hwaits =>
    obtain ⟨rfl, rfl⟩ := ReaderStage.storing.inj (hreading.symm.trans hstoring)
    obtain rfl := Option.some.inj (hbefore.symm.trans hc)
    rw [(Channel.store_of_isDropped hdrop row).1] at hwaits
    cases hwaits
  | close hother hdecode hover => cases hreading.symm.trans hother
  | _ hother => cases hreading.symm.trans hother

/-- A payload of a statement is dealt with, or leaves a row. -/
theorem decodes_payload (hwork : s.AtWork) {payload : List UInt8}
    (hstage : s.reader.stage = .decoding (.statement key) payload) :
    s.TakesOn (s.act (.turn .reader)) key ∧
      ∃ c, s.channels[key]? = some c ∧
        (s.act (.turn .reader)).channels[key]? = some (c.receive payload).1 ∧
          ((c.receive payload).2 = none ∧ s.Returns (s.act (.turn .reader)) key ∨
            ∃ row, (c.receive payload).2 = some row ∧
              (s.act (.turn .reader)).reader.stage = .storing key row) := by
  obtain ⟨hstep, hready⟩ := turn_steps horder hwork
  generalize hroster : (s.act (.turn .reader)).roster = r' at hstep
  generalize hfeed : (s.act (.turn .reader)).feed = f' at hstep
  generalize s.readsOn = goesOn at hstep hready
  have hreading : s.roster.reading = .decoding (.statement key) payload := hstage
  have hrows (c : Channel) (_ : s.channels[key]? = some c) : (c.receive payload).1.rows = c.rows :=
    (c.receive_eq payload) ▸ c.hear_rows _
  cases hstep with
  | @hearRow other payload' c row hdecoding hc hrow =>
    cases hreading.symm.trans hdecoding
    exact ⟨takesOn_of_change hwork.isOpen hroster hfeed (hready rfl) hrows, c, hc,
      channel_of_change hc hroster, .inr ⟨row, hrow, congrArg Roster.reading hroster⟩⟩
  | @hear other payload' c hdecoding hc hnone =>
    cases hreading.symm.trans hdecoding
    have hchannel := channel_of_change hc hroster
    exact ⟨takesOn_of_change hwork.isOpen hroster hfeed (hready rfl) hrows, c, hc, hchannel,
      .inl ⟨hnone, congrArg Roster.reading hroster, _, hchannel,
        congrArg Roster.pending hroster⟩⟩
  | _ hother => cases hreading.symm.trans hother

/-- The handler of a statement that has ended is nowhere. -/
theorem gone_of_isDone {c : Channel} (hc : s.channels[key]? = some c) (hdone : c.isDone) :
    .statement key ∉ s.pending ∧ s.reader.stage.held? ≠ some (.statement key) := by
  have hends : ¬ s.roster.goesOn (.statement key) := by
    rw [Roster.goesOn_statement_iff]
    rintro ⟨c', hc', hlive⟩
    obtain rfl := Option.some.inj (hc.symm.trans hc')
    exact absurd hdone (by simp [hlive])
  refine ⟨fun hmem => hends ((horder.tenure key).goesOn_of_mem hmem), fun hheld => ?_⟩
  obtain ⟨c', hc', hlive⟩ := horder.exists_held hheld
  exact hends (Roster.goesOn_statement_iff.mpr ⟨c', hc', hlive⟩)

/-- A dropped response holds nobody up on a link that works. -/
theorem passesBy_of_dropped (hworks : s.IsEnding ∨ s.AtWork) (hdropped : s.roster.HasDropped key) :
    s.PassesBy key := by
  have hwork (hopen : s.isClosed = false) : s.AtWork :=
    hworks.resolve_left fun hending => by cases hopen.symm.trans hending.closed
  exact
    { dropped := hdropped
      awake := awake_of_dropped hworks hdropped
      discards := fun row hopen hstage =>
        discards_of_dropped horder (hwork hopen) hdropped hstage
      decodes := fun payload hopen hstage => by
        obtain ⟨htakes, c, -, -, hresult⟩ := decodes_payload horder (hwork hopen) hstage
        exact ⟨htakes, hresult.imp And.right (Exists.imp fun _ => And.right)⟩
      ends := fun payload hopen hstage hends => by
        obtain ⟨-, c, -, hchannel, hresult⟩ := decodes_payload horder (hwork hopen) hstage
        obtain ⟨hdone, hnone⟩ := c.receive_of_ends hends
        rcases hresult with ⟨-, hreading, c', hc', hpending⟩ | ⟨row, hrow, -⟩
        · obtain rfl := Option.some.inj (hchannel.symm.trans hc')
          rw [if_pos hdone] at hpending
          exact ⟨hreading, hpending, _, hchannel, hdone⟩
        · cases hnone.symm.trans hrow
      gone := fun c hc hdone => gone_of_isDone horder hc hdone
      halts := fun hclosed => by
        rcases hworks with hending | hwork
        · exact hending.turn.2.1
        · cases hwork.isOpen.symm.trans hclosed }

/-- A reader that works dispatches all frames. -/
theorem dispatches_of_works (hworks : s.IsEnding ∨ s.AtWork) : s.Dispatches := by
  have hwork (hopen : s.isClosed = false) : s.AtWork :=
    hworks.resolve_left fun hending => by cases hopen.symm.trans hending.closed
  constructor
  · intro frame rest hopen hreading hdecode
    obtain ⟨hstep, -⟩ := turn_steps horder (hwork hopen)
    refine ⟨(hwork hopen).alert.resolve_right fun ⟨_, hspent⟩ => ?_, ?_⟩
    · have hnone := hspent hreading
      rw [hdecode] at hnone
      cases hnone
    · have hsame : s.roster.reading = .reading := hreading
      have hfront : s.codec.decode s.feed.buffer = (some frame, rest) := hdecode
      generalize hroster : (s.act (.turn .reader)).roster = r' at hstep
      generalize hfeed : (s.act (.turn .reader)).feed = f' at hstep
      rw [← accepts_roster]
      change _ ∧ (s.act (.turn .reader)).roster.reading = _
      generalize s.readsOn = goesOn at hstep
      cases hstep with
      | skip _ hdecode' hfind =>
        cases hfront.symm.trans hdecode'
        change s.pending.find? (s.roster.accepts frame) = none at hfind
        rw [hroster, hfind]
        exact ⟨rfl, hsame⟩
      | take _ hdecode' hfind =>
        cases hfront.symm.trans hdecode'
        change s.pending.find? (s.roster.accepts frame) = some _ at hfind
        rw [hroster, hfind]
        exact ⟨rfl, rfl⟩
      | wait _ hdecode' => cases hfront.symm.trans hdecode'
      | chunk _ hdecode' => cases hfront.symm.trans hdecode'
      | ended _ hdecode' => cases hfront.symm.trans hdecode'
      | close _ hdecode' => cases hfront.symm.trans hdecode'
      | _ hother => cases hsame.symm.trans hother
  · intro hopen hasleep
    obtain ⟨hidles, hspent⟩ := (hwork hopen).alert.resolve_left hasleep
    have hreads := (hwork hopen).reads
    unfold Roster.Idles at hidles
    change s.roster.reading.isStopped = false at hreads
    change (s.roster.reading = .reading ∧ _) ∨ ∃ key row c, s.roster.reading = .storing key row ∧ _
    change s.roster.reading = .reading → _ at hspent
    cases hstage : s.roster.reading with
    | reading =>
      rw [hstage] at hidles
      exact .inl ⟨rfl, hidles.1, hidles.2, hspent hstage⟩
    | decoding handler payload =>
      rw [hstage] at hidles
      exact hidles.elim
    | storing key row =>
      rw [hstage] at hidles
      obtain ⟨c, hc, hwaits⟩ := hidles
      exact .inr ⟨key, row, c, rfl, hc, hwaits⟩
    | stopped =>
      rw [hstage] at hreads
      cases hreads

/-- A response that was dropped gets no rows: those that are in its buffer were there before. -/
theorem keeps_dropped (hworks : s.IsEnding ∨ s.AtWork) {c : Channel}
    (hc : s.channels[key]? = some c) (hdropped : c.isDropped) (action : Action) :
    ∃ c', (s.act action).channels[key]? = some c' ∧ c'.isDropped ∧
      Event.gainedFrom key (s.eventsAt action) ++ c'.rows = c.rows ∧ (c.isDone → c'.isDone) := by
  have hhas : s.roster.HasDropped key := ⟨c, hc, hdropped⟩
  obtain ⟨c', hc', hdropped'⟩ := (atWork_step horder hworks action).2 key hhas
  refine ⟨c', hc', hdropped', ?_⟩
  by_cases hfed : .fed key ∈ s.eventsAt action
  · obtain ⟨rfl, hgoesOn, hheld⟩ := held_of_fed hfed
    have hreads : s.reader.stage.isStopped = false := by
      cases hstage : s.reader.stage with
      | stopped =>
        rw [hstage] at hheld
        cases hheld
      | _ => rfl
    have hopen : s.isClosed = false := by
      cases hclosed : s.isClosed with
      | false => rfl
      | true =>
        rcases horder.shut.reader hclosed with hstopped | haborted
        · cases hreads.symm.trans hstopped
        · cases hgoesOn.symm.trans haborted
    have hpasses := passesBy_of_dropped horder hworks hhas
    have htakes : s.TakesOn (s.act (.turn .reader)) key := by
      cases hstage : s.reader.stage with
      | decoding handler payload =>
        rw [hstage] at hheld
        obtain rfl := Option.some.inj hheld
        exact (hpasses.decodes payload hopen hstage).1
      | storing other row =>
        rw [hstage] at hheld
        obtain rfl := Handler.statement.inj (Option.some.inj hheld)
        exact (hpasses.discards row hopen hstage).1
      | _ =>
        rw [hstage] at hheld
        cases hheld
    obtain ⟨after, hafter, hrows⟩ := htakes.rows c hc
    obtain rfl := Option.some.inj (hafter.symm.trans hc')
    rw [gainedFrom_reader]
    exact ⟨hrows, fun hdone => absurd hheld (hpasses.gone c hc hdone).2⟩
  · obtain ⟨after, hafter, hcomes⟩ := (s.act_moves action).brings hfed hc
    obtain rfl := Option.some.inj (hafter.symm.trans hc')
    exact ⟨hcomes.rows, fun hdone =>
      (Channel.isDone_of_answer (hcomes.answer_of_isDone hdone)).trans hdone⟩

end Turns

/-! ### Whole runs -/

/-- Once a response is dropped, its statement does not hold up the reader, and its buffer gets no
rows. -/
theorem passesBy_runOf (config : Config) (actions more : List Action) {c : Channel}
    (hc : (runOf config actions).channels[key]? = some c) (hdropped : c.isDropped) :
    (runOf config (actions ++ more)).PassesBy key ∧
      (runOf config (actions ++ more)).Dispatches ∧
        ∃ c', (runOf config (actions ++ more)).channels[key]? = some c' ∧ c'.isDropped ∧
          Event.gainedFrom key ((runOf config actions).journal more) ++ c'.rows = c.rows ∧
            (c.isDone → c'.isDone) := by
  induction more using List.reverseRecOn with
  | nil =>
    rw [List.append_nil]
    have horder := inOrder_runOf config actions
    have hworks := atWork_runOf config actions
    exact ⟨passesBy_of_dropped horder hworks ⟨c, hc, hdropped⟩, dispatches_of_works horder hworks,
      c, hc, hdropped, rfl, id⟩
  | append_singleton more action ih =>
    obtain ⟨-, -, before, hbefore, hdrop, hrows, hdone⟩ := ih
    have horder := inOrder_runOf config (actions ++ more)
    have hworks := atWork_runOf config (actions ++ more)
    obtain ⟨after, hafter, hdrop', hrows', hdone'⟩ :=
      keeps_dropped horder hworks hbefore hdrop action
    have hrun : runOf config (actions ++ (more ++ [action])) =
        (runOf config (actions ++ more)).act action := by
      rw [← List.append_assoc, runOf_concat]
    have hjournal : (runOf config actions).journal (more ++ [action]) =
        (runOf config actions).journal more ++
          (runOf config (actions ++ more)).eventsAt action := by
      rw [journal_append, ← runOf_append, journal, journal, List.append_nil]
    rw [hjournal, Event.gainedFrom_append, hrun]
    refine ⟨?_, ?_, after, hafter, hdrop', ?_, hdone' ∘ hdone⟩
    · rw [← hrun] at hafter ⊢
      exact passesBy_of_dropped (inOrder_runOf config _) (atWork_runOf config _) ⟨_, hafter, hdrop'⟩
    · rw [← hrun]
      exact dispatches_of_works (inOrder_runOf config _) (atWork_runOf config _)
    · rw [List.append_assoc, hrows', hrows]

/-- A dropped response holds up nobody, neither the handler of its own statement, whatever the
handler is doing then and whatever comes for it later, nor the reader that serves all statements of
a link. -/
theorem dropped_holdsUpNobody :
    (∀ (id : UInt32) (capacity : Nat) (bound : Duration)
        (actions more : List StatementSession.Action),
      (StatementSession.sessionOf id capacity bound actions).channel.isDropped = true →
        (StatementSession.sessionOf id capacity bound (actions ++ more)).PassesBy ∧
          (StatementSession.sessionOf id capacity bound (actions ++ more)).channel.rows =
            (StatementSession.sessionOf id capacity bound actions).channel.rows ∧
          ((StatementSession.sessionOf id capacity bound actions).channel.isDone = true →
            (StatementSession.sessionOf id capacity bound (actions ++ more)).channel.isDone =
              true)) ∧
      ∀ (config : Config) (actions more : List Action) (key : Nat) (c : Channel),
        (runOf config actions).channels[key]? = some c → c.isDropped →
          (runOf config (actions ++ more)).PassesBy key ∧
            (runOf config (actions ++ more)).Dispatches ∧
              ∃ c', (runOf config (actions ++ more)).channels[key]? = some c' ∧ c'.isDropped ∧
                Event.gainedFrom key ((runOf config actions).journal more) ++ c'.rows = c.rows ∧
                  (c.isDone → c'.isDone) :=
  ⟨fun id capacity bound actions more hdropped =>
      StatementSession.passesBy_sessionOf id capacity bound actions more hdropped,
    fun config actions more _ _ hc hdropped => passesBy_runOf config actions more hc hdropped⟩

/-- Two statements; the buffer of the first one takes one row, and a second row waits for a slot
when its response is dropped. -/
def droppedWhileWaiting : List Action :=
  .statement 0 ⟨2, []⟩ 7 1 (.ofSeconds 30) :: List.replicate 4 (.turn (.task 0)) ++
    submission 1 9 ++
    reception [⟨3, [0, 0, 0, 7, 0, 1, 1, 97, 4]⟩, ⟨3, [0, 0, 0, 7, 1, 1, 4, 1]⟩,
      ⟨3, [0, 0, 0, 7, 1, 1, 4, 0]⟩] ++
    List.replicate 2 (.turn .reader) ++ [.dropResponse 0]

/-- Another row for the first statement, the abort of the second one, and that of the first one. -/
def afterTheDrop : List Action :=
  .turn .reader ::
    reception [⟨3, [0, 0, 0, 7, 1, 1, 4, 1]⟩, ⟨3, [0, 0, 0, 9, 2]⟩, ⟨3, [0, 0, 0, 7, 2]⟩] ++
      [.turn .reader]

/-- What is handed to the handler of one statement in this way. -/
def fedWhileDropped : List StatementSession.Action × List StatementSession.Action :=
  (.feed [0, 0, 0, 7, 0, 1, 1, 97, 4] :: .feed [0, 0, 0, 7, 1, 1, 4, 1] ::
      .feed [0, 0, 0, 7, 1, 1, 4, 0] :: List.replicate 8 (.turn .handler) ++ [.perform 0 .drop],
    .turn .handler :: .feed [0, 0, 0, 7, 2] :: List.replicate 2 (.turn .handler))

/-- The row that waited and the next one are discarded, and both statements end. -/
theorem dropped_whileWaiting :
    ((StatementSession.sessionOf 7 1 (.ofSeconds 30) fedWhileDropped.1).channel.isDropped = true ∧
      (StatementSession.sessionOf 7 1 (.ofSeconds 30)
        (fedWhileDropped.1 ++ fedWhileDropped.2)).PassesBy ∧
      (StatementSession.sessionOf 7 1 (.ofSeconds 30)
        (fedWhileDropped.1 ++ fedWhileDropped.2)).channel.rows =
          [⟨[⟨"a", .boolean⟩], [.boolean true]⟩] ∧
      (StatementSession.sessionOf 7 1 (.ofSeconds 30)
        (fedWhileDropped.1 ++ fedWhileDropped.2)).channel.isDone = true) ∧
      (runOf (.defaults "" 0) droppedWhileWaiting).reader.stage =
        .storing 0 ⟨[⟨"a", .boolean⟩], [.boolean false]⟩ ∧
      (runOf (.defaults "" 0) (droppedWhileWaiting ++ afterTheDrop)).PassesBy 0 ∧
      (runOf (.defaults "" 0) (droppedWhileWaiting ++ afterTheDrop)).reader.stage = .reading ∧
      (runOf (.defaults "" 0) (droppedWhileWaiting ++ afterTheDrop)).pending = [] := by
  obtain ⟨hsession, hlink⟩ := dropped_holdsUpNobody
  obtain ⟨hpasses, hrows, -⟩ :=
    hsession 7 1 (.ofSeconds 30) fedWhileDropped.1 fedWhileDropped.2 rfl
  obtain ⟨c, hc, hdropped⟩ : ∃ c, (runOf (.defaults "" 0) droppedWhileWaiting).channels[0]? =
      some c ∧ c.isDropped := ⟨_, rfl, rfl⟩
  obtain ⟨hpassesBy, -, -⟩ :=
    hlink (.defaults "" 0) droppedWhileWaiting afterTheDrop 0 c hc hdropped
  exact ⟨⟨rfl, hpasses, hrows.trans rfl, rfl⟩, rfl, hpassesBy, rfl, rfl⟩

end BeeProtocol.Link
