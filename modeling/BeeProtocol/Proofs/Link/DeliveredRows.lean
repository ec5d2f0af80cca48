import BeeProtocol.Proofs.Link.OpenReader
import BeeProtocol.Proofs.Row

/-!
# The rows that a statement delivers

The reader makes a row of a header and of as many values, and nobody changes it from then on. So
whoever takes a row from a response has a value for each of its columns, and all ways to look one up
agree.
-/

namespace BeeProtocol

namespace Channel

variable {c c' : Channel} {rows : List Row} {row : Row}

/-- Every row that waits in the buffer has a value for each column. -/
def RowsAligned (c : Channel) : Prop := ∀ row ∈ c.rows, row.IsAligned

/-- A row is made only of values that fit the header. -/
theorem isAligned_of_fitRow {values : List Value} (h : c.fitRow? values = some row) :
    row.IsAligned := by
  unfold fitRow? at h
  split at h
  · cases h
  · split at h
    · split at h
      · rename_i hfits
        obtain rfl := Option.some.inj h
        exact hfits
      · cases h
    · cases h

/-- A row that a payload leaves is aligned. -/
theorem isAligned_of_receive {payload : List UInt8} (h : (c.receive payload).2 = some row) :
    row.IsAligned := by
  rw [receive_eq] at h
  cases hsignal : Signal.ofPayload payload with
  | decoded event =>
    rw [hsignal] at h
    cases event with
    | row values => exact isAligned_of_fitRow h
    | _ => cases h
  | _ =>
    rw [hsignal] at h
    cases h

/-- Rows stay aligned where they stay. -/
theorem RowsAligned.of_rows (h : c.RowsAligned) (hrows : c'.rows = c.rows) : c'.RowsAligned := by
  rw [RowsAligned, hrows]
  exact h

/-- The rows that are taken and those that stay have been there before. -/
theorem ComesTo.rowsAligned (h : c.ComesTo rows c') (haligned : c.RowsAligned) :
    (∀ row ∈ rows, row.IsAligned) ∧ c'.RowsAligned := by
  rw [RowsAligned, ← h.rows] at haligned
  exact List.forall_mem_append.mp haligned

/-- A row that is aligned may be stored among others. -/
theorem RowsAligned.store (h : c.RowsAligned) (hrow : row.IsAligned) :
    (c.store row).1.RowsAligned := by
  have hpush {c' : Channel} (hrows : c'.rows = c.rows ++ [row]) : c'.RowsAligned := by
    rw [RowsAligned, hrows]
    exact List.forall_mem_append.mpr ⟨h, by simpa using hrow⟩
  unfold Channel.store
  split
  · exact h.of_rows rfl
  · exact h.of_rows rfl
  · exact hpush rfl
  · exact h
  · split
    · exact h.of_rows rfl
    · exact hpush rfl

end Channel

namespace Event

/-- Every row that was taken has a value for each column. -/
def TakesAligned (log : List Event) : Prop :=
  ∀ key rows, .gained key rows ∈ log → ∀ row ∈ rows, row.IsAligned

/-- What was taken in two parts of a run is aligned if each part is. -/
theorem takesAligned_append {log more : List Event} (h : TakesAligned log)
    (hmore : TakesAligned more) : TakesAligned (log ++ more) := by
  intro key rows hmem
  rcases List.mem_append.mp hmem with hmem | hmem
  · exact h key rows hmem
  · exact hmore key rows hmem

end Event

namespace Roster

variable {r r' : Roster} {event : Option Event} {events log : List Event} {key : Nat}

/-- Every row that waits in a response has a value for each column. -/
def RowsAligned (r : Roster) : Prop := ∀ c ∈ r.channels, c.RowsAligned

/-- A row that the reader holds has a value for each column. -/
def HoldsAligned (r : Roster) : Prop := ∀ key row, r.reading = .storing key row → row.IsAligned

/-- A reader that holds no row holds no other than aligned ones. -/
theorem holdsAligned_of_ne {stage : ReaderStage} (h : r.reading = stage)
    (hnone : ∀ key row, stage ≠ .storing key row) : r.HoldsAligned :=
  fun key row hstoring => absurd (h.symm.trans hstoring) (hnone key row)

/-- What a caller takes comes off the front of a buffer. -/
theorem Move.givesOut {rows : List Row} (hmove : r.Move (some (.gained key rows)) r') :
    ∃ c c', r.channels[key]? = some c ∧ c.GivesOut rows c' := by
  cases hmove with
  | giveOut hchannel hgives => exact ⟨_, _, hchannel, hgives⟩

/-- What is done without feeding a statement adds no rows, and what is taken was there. -/
theorem Move.rowsAligned (hmove : r.Move event r') (hunfed : ∀ key, event ≠ some (.fed key))
    (h : r.RowsAligned) : r'.RowsAligned ∧ Event.TakesAligned event.toList := by
  constructor
  · intro c hmem
    obtain ⟨key, hc⟩ := List.mem_iff_getElem?.mp hmem
    cases hbefore : r.channels[key]? with
    | none =>
      obtain ⟨id, capacity, bound, rfl⟩ := hmove.eq_fresh hbefore hc
      exact fun row hrow => absurd hrow List.not_mem_nil
    | some before =>
      rcases hmove.fares hbefore with ⟨after, hafter, hcomes⟩ | ⟨hfed, -, -, -⟩
      · rw [hc, Option.some.injEq] at hafter
        exact hafter ▸ (hcomes.rowsAligned (h before (List.mem_of_getElem? hbefore))).2
      · exact absurd hfed (hunfed key)
  · intro key rows hmem
    obtain rfl := Option.mem_toList.mp hmem
    obtain ⟨c, c', hc, hgives⟩ := hmove.givesOut
    exact ((Channel.ComesTo.of_givesOut hgives).rowsAligned (h c (List.mem_of_getElem? hc))).1

/-- Rows stay aligned in moves that feed no statement. -/
theorem Moves.rowsAligned (hmoves : r.Moves events r') (hunfed : ∀ key, .fed key ∉ events)
    (h : r.RowsAligned) (htaken : Event.TakesAligned log) :
    r'.RowsAligned ∧ Event.TakesAligned (log ++ events) := by
  refine hmoves.invariant (P := fun r log => r.RowsAligned ∧ Event.TakesAligned log) log ?_
    ⟨h, htaken⟩
  rintro r r' event log hevents hmove ⟨h, htaken⟩
  obtain ⟨hnext, hmore⟩ := hmove.rowsAligned (fun key hfed => hunfed key (hevents _ hfed)) h
  exact ⟨hnext, Event.takesAligned_append htaken hmore⟩

/-- The reader makes rows of values that fit their header, and stores nothing else. -/
theorem ReaderStep.rowsAligned {codec : Codec} {f f' : Feed} {goesOn : Bool}
    (h : ReaderStep codec r f r' f' goesOn) (hrows : r.RowsAligned) (hholds : r.HoldsAligned) :
    r'.RowsAligned ∧ r'.HoldsAligned := by
  have hreceive (key : Nat) (payload : List UInt8) :
      (r.change key fun c => (c.receive payload).1).RowsAligned :=
    forall_change hrows key fun c _ haligned =>
      haligned.of_rows (by rw [c.receive_eq, c.hear_rows])
  have hstore {key : Nat} {row : Row} (hreading : r.reading = .storing key row) :
      (r.change key fun c => (c.store row).1).RowsAligned :=
    forall_change hrows key fun c _ haligned => haligned.store (hholds key row hreading)
  cases h with
  | take hreading hdecode hfind => exact ⟨hrows, holdsAligned_of_ne rfl nofun⟩
  | close hreading hdecode hover =>
    have hshut : r.shut.RowsAligned :=
      forall_shut hrows fun c haligned => haligned.of_rows (c.finish_rows _)
    exact ⟨hshut, holdsAligned_of_ne rfl nofun⟩
  | answer hreading => exact ⟨hrows, holdsAligned_of_ne rfl nofun⟩
  | @hearRow key payload c row hreading hc hrow =>
    refine ⟨hreceive key payload, fun other made hstoring => ?_⟩
    obtain ⟨-, rfl⟩ := ReaderStage.storing.inj hstoring
    exact Channel.isAligned_of_receive hrow
  | @hear key payload c hreading hc hnone =>
    exact ⟨hreceive key payload, holdsAligned_of_ne rfl nofun⟩
  | store hreading hc hstored => exact ⟨hstore hreading, holdsAligned_of_ne rfl nofun⟩
  | stall hreading hc hwaits => exact ⟨hstore hreading, hholds⟩
  | _ => exact ⟨hrows, hholds⟩

end Roster

namespace Link

variable {s : Link} {log : List Event} {action : Action}

/-- Every row of a link has a value for each column: those that wait in responses, the one that the
reader holds, and those that were taken. -/
structure AlignsRows (s : Link) (log : List Event) : Prop where
  /-- The rows that wait to be taken have a value for each column. -/
  waiting : s.roster.RowsAligned
  /-- So has the row that the reader holds. -/
  held : s.roster.HoldsAligned
  /-- So have the rows that were taken. -/
  taken : Event.TakesAligned log

/-- In the beginning there are no rows. -/
theorem alignsRows_fresh (config : Config) : (fresh config).AlignsRows [] where
  waiting _ hmem := absurd hmem List.not_mem_nil
  held := Roster.holdsAligned_of_ne rfl nofun
  taken _ _ hmem := absurd hmem List.not_mem_nil

/-- The reader takes no rows from a response. -/
theorem takesAligned_reader (s : Link) : Event.TakesAligned (s.eventsAt (.turn .reader)) := by
  intro key rows hmem
  have hturn : .gained key rows ∈ s.turnEvents .reader := hmem
  rcases turnEvents_cases hturn with ⟨t, stage, htask, -⟩ | ⟨-, -, hmem⟩
  · cases htask
  · simpa using readerEvents_cases hmem

/-- A reader that ends feeds nothing. -/
theorem IsEnding.fed_notMem (h : s.IsEnding) (key : Nat) :
    .fed key ∉ s.eventsAt (.turn .reader) := by
  intro hmem
  obtain ⟨-, haborted, hheld⟩ := held_of_fed hmem
  rcases h.reader with hstopped | ⟨hends, -⟩
  · cases hstage : s.reader.stage with
    | stopped =>
      rw [hstage] at hheld
      cases hheld
    | _ =>
      rw [hstage] at hstopped
      cases hstopped
  · rw [haborted] at hends
    cases hends

/-- What is done without feeding a statement leaves the rows aligned, unless the reader turns to
another one. -/
theorem AlignsRows.unfed (h : s.AlignsRows log) (hunfed : ∀ key, .fed key ∉ s.eventsAt action)
    (hheld : (s.act action).roster.HoldsAligned) :
    (s.act action).AlignsRows (log ++ s.eventsAt action) := by
  obtain ⟨hwaiting, htaken⟩ := (s.act_moves action).rowsAligned hunfed h.waiting h.taken
  exact ⟨hwaiting, hheld, htaken⟩

/-- After every action all rows are aligned. -/
theorem AlignsRows.act (h : s.AlignsRows log) (horder : s.InOrder log)
    (hworks : s.IsEnding ∨ s.AtWork) (action : Action) :
    (s.act action).AlignsRows (log ++ s.eventsAt action) := by
  by_cases hreader : action = .turn .reader
  · subst hreader
    rcases hworks with hending | hwork
    · refine h.unfed hending.fed_notMem fun key row hstoring => ?_
      have hstopped : (s.act (.turn .reader)).roster.reading.isStopped := hending.turn.2.1
      rw [hstoring] at hstopped
      cases hstopped
    · obtain ⟨⟨hstep, -, -⟩, -⟩ := hwork.turn horder.attended fun _ hheld =>
        (horder.exists_held hheld).imp fun _ => And.left
      obtain ⟨hwaiting, hheld⟩ := hstep.rowsAligned h.waiting h.held
      exact ⟨hwaiting, hheld, Event.takesAligned_append h.taken s.takesAligned_reader⟩
  · refine h.unfed (fun key hmem => hreader (held_of_fed hmem).1) fun key row hstoring => ?_
    obtain ⟨isHeld, hyields⟩ := s.yields_act hreader
    exact h.held key row (hyields.reading.symm.trans hstoring)

/-- In every run all rows are aligned. -/
theorem alignsRows_runOf (config : Config) (actions : List Action) :
    (runOf config actions).AlignsRows (journalOf config actions) := by
  induction actions using List.reverseRecOn with
  | nil => exact alignsRows_fresh config
  | append_singleton actions action ih =>
    rw [runOf_concat, journalOf, journal_append, journal, journal, List.append_nil]
    exact ih.act (inOrder_runOf config actions) (atWork_runOf config actions) action

end Link

namespace Row

/-- A caller takes the row from the response of a statement, in some run. -/
def IsDelivered (row : Row) : Prop :=
  ∃ config actions key rows, .gained key rows ∈ Link.journalOf config actions ∧ row ∈ rows

variable {row : Row}

/-- A row that is delivered is aligned. -/
theorem IsDelivered.isAligned (h : row.IsDelivered) : row.IsAligned := by
  obtain ⟨config, actions, key, rows, hmem, hrow⟩ := h
  exact (Link.alignsRows_runOf config actions).taken key rows hmem row hrow

/-- In a row with a value for each column, as every row is that a statement delivers, all ways to
look up a value agree. -/
theorem looksUpAlike (h : row.IsAligned ∨ row.IsDelivered) : row.IsAligned ∧ row.LooksUpAlike := by
  have haligned : row.IsAligned := h.elim id IsDelivered.isAligned
  exact ⟨haligned, looksUpAlike_of_isAligned haligned⟩

/-- A row in which two columns have one name. -/
def repeatedName : Row where
  columns := [⟨"a", .integer⟩, ⟨"a", .boolean⟩, ⟨"b", .nil⟩]
  values := [.integer 1, .boolean true, .nil]

/-- A statement is answered with this row, and the caller takes it. -/
def repeatedNameTaken : List Link.Action :=
  Link.submission 0 7 ++
    Link.reception [⟨3, [0, 0, 0, 7, 0, 3, 1, 97, 2, 1, 97, 4, 1, 98, 0]⟩,
      ⟨3, [0, 0, 0, 7, 1, 3, 2, 0, 0, 0, 0, 0, 0, 0, 1, 4, 1, 0]⟩] ++
    [.turn .reader, .turn .reader, .next 0]

/-- A row with a name that stands twice is delivered in some run. -/
theorem isDelivered_repeatedName : repeatedName.IsDelivered := by
  have hlast : (Link.journalOf (.defaults "" 0) repeatedNameTaken).getLast? =
      some (.gained 0 [repeatedName]) := rfl
  exact ⟨_, _, _, _, List.mem_of_getLast? hlast, List.mem_singleton_self _⟩

/-- The name stands for the first of its columns, as every kind of value. -/
theorem looksUpAlike_repeatedName :
    (repeatedName.IsAligned ∨ repeatedName.IsDelivered) ∧ repeatedName.IsAligned ∧
      repeatedName.LooksUpAlike ∧
      repeatedName.getAs .integer "a" = .ok 1 ∧
      repeatedName.getAs .boolean "a" = .error (.typeConversion "expected Boolean, got Integer") ∧
      repeatedName.atAs .boolean 1 = .ok true ∧
      repeatedName.getOptional .blob "b" = .ok none ∧
      repeatedName.getOptional .blob "c" = .error (.columnNotFound "c") := by
  have hgiven : repeatedName.IsAligned ∨ repeatedName.IsDelivered := .inr isDelivered_repeatedName
  obtain ⟨haligned, halike⟩ := looksUpAlike hgiven
  exact ⟨hgiven, haligned, halike, rfl, rfl, rfl, rfl, rfl⟩

end Row

end BeeProtocol
