import BeeProtocol.Proofs.Link.Closing
import BeeProtocol.Proofs.Link.Courses
import BeeProtocol.Proofs.Link.Ledger

/-!
# Allocated statement ids

Statement ids are allocated one after another and start again at 0 when they reach their limit. So
the statements of a run that lets the link choose their ids have the same id if and only if a
multiple of the limit lies between their serial numbers, and the statements in flight have distinct
ids as long as none of them is in flight for too long.
-/

namespace BeeProtocol

namespace Link

/-! ### Serial numbers -/

/-- The id that is allocated as the one with this serial number, the first being 1. -/
def statementId (serial : Nat) : UInt32 := (UInt16.ofNat (serial % idLimit)).toUInt32

/-- The id that follows counts on modulo the number of ids. -/
theorem followingId_mod (serial : Nat) :
    followingId (serial % idLimit) = (serial + 1) % idLimit := by
  unfold followingId idLimit
  split <;> omega

/-- The ids that follow one after another count on modulo their number. -/
theorem iterate_followingId (serial count : Nat) :
    followingId^[count] (serial % idLimit) = (serial + count) % idLimit := by
  induction count generalizing serial with
  | zero => rfl
  | succ count ih =>
    rw [Function.iterate_succ_apply, followingId_mod, ih, Nat.add_assoc, Nat.add_comm 1]

/-- Ids repeat only after as many as there are. -/
theorem statementId_eq_iff (first second : Nat) :
    statementId first = statementId second ↔ first % idLimit = second % idLimit := by
  have hvalue (serial : Nat) : (statementId serial).toNat = serial % idLimit := by
    have hlt : serial % idLimit < 65536 := (Nat.mod_lt serial (by decide)).trans (by decide)
    rw [statementId, UInt16.toNat_toUInt32, UInt16.toNat_ofNat', Nat.mod_eq_of_lt hlt]
  rw [← UInt32.toNat_inj, hvalue, hvalue]

/-- Among the latest serial numbers none repeats. -/
theorem serial_eq_of_near {first second allocated : Nat}
    (h : first % idLimit = second % idLimit) (hfirst : first ≤ allocated)
    (hsecond : second ≤ allocated) (hnear : allocated < first + idLimit)
    (hnear' : allocated < second + idLimit) : first = second := by
  unfold idLimit at *
  omega

end Link

namespace Entry

/-- How many ids are allocated. -/
def allocations (entries : List Entry) : Nat := (entries.map (·.allocated)).sum

/-- For each statement that is opened, by key, how many ids have been allocated by then, given how
many were before. -/
def serials (before : Nat) : List Entry → List Nat
  | [] => []
  | entry :: entries =>
    List.replicate entry.opened.length (before + entry.allocated) ++
      serials (before + entry.allocated) entries

end Entry

/-- All ids were allocated, those of the statements under these serial numbers. -/
structure Ledger.Allocates (l : Ledger) (allocated : Nat) (serials : List Nat) : Prop where
  /-- The latest id is the number of the allocations, modulo the number of ids. -/
  lastId : l.lastId = allocated % Link.idLimit
  /-- The ids of the statements are those of their serial numbers. -/
  ids : l.ids = serials.map Link.statementId
  /-- The serial numbers increase. -/
  increasing : serials.Pairwise (· < ·)
  /-- No serial number is beyond the number of the allocations. -/
  bounded : ∀ n ∈ serials, n ≤ allocated

/-- A statement that is opened has the id that was allocated last. -/
theorem Ledger.Allocates.add {l : Ledger} {allocated : Nat} {serials : List Nat}
    (h : l.Allocates allocated serials) {entry : Entry}
    (hopened : entry.opened = [] ∨
      entry.allocated = 1 ∧ entry.opened = [Link.statementId (allocated + 1)]) :
    (l.add entry).Allocates (allocated + entry.allocated)
      (serials ++ List.replicate entry.opened.length (allocated + entry.allocated)) := by
  have hlast : (l.add entry).lastId = (allocated + entry.allocated) % Link.idLimit := by
    change Link.followingId^[entry.allocated] l.lastId = _
    rw [h.lastId, Link.iterate_followingId]
  rcases hopened with hnone | ⟨hone, hid⟩
  · refine ⟨hlast, ?_, ?_, ?_⟩
    · change l.ids ++ entry.opened = _
      simp [hnone, h.ids]
    · simpa [hnone] using h.increasing
    · intro n hmem
      have hle := h.bounded n (by simpa [hnone] using hmem)
      omega
  · refine ⟨hlast, ?_, ?_, ?_⟩
    · change l.ids ++ entry.opened = _
      simp [hid, hone, h.ids]
    · rw [hid, hone]
      refine List.pairwise_append.mpr ⟨h.increasing, List.pairwise_singleton .., ?_⟩
      intro n hmem last hlast
      have hle := h.bounded n hmem
      rw [List.mem_singleton.mp hlast]
      omega
    · intro n hmem
      rcases List.mem_append.mp hmem with hmem | hmem
      · have hle := h.bounded n hmem
        omega
      · exact (List.eq_of_mem_replicate hmem).le

namespace Link

/-- Whether an action submits a statement with an id of the caller's choice. -/
def Action.choosesId : Action → Bool
  | .statement _ _ _ _ _ => true
  | .call _ (.submit _ _ _) _ => true
  | _ => false

/-- Nobody is about to submit a statement with an id of his choice. -/
def ChoosesNoId (s : Link) : Prop :=
  ∀ id script seconds, .called (.submit id script seconds) ∉ s.roster.stages

variable {s : Link}

/-- As long as no action chooses an id no call does. -/
theorem ChoosesNoId.act (h : s.ChoosesNoId) {action : Action} (haction : action.choosesId = false) :
    (s.act action).ChoosesNoId := by
  intro id script seconds hmem
  obtain ⟨u, hnew⟩ := List.mem_iff_getElem?.mp hmem
  cases s.comes_act hnew with
  | begun hnone hbegins =>
    cases action with
    | call label call hplain =>
      obtain rfl := Stage.called.inj hbegins
      cases haction
    | statement label frame other capacity bound => cases haction
    | reply label frame kind => cases hbegins
    | pull label channel pull bound =>
      obtain ⟨key, call, heq⟩ := hbegins
      cases heq
    | watch label reply bound =>
      obtain ⟨deadline, heq⟩ := hbegins
      cases heq
    | turn actor =>
      cases actor with
      | reader => cases hbegins
      | task t =>
        obtain ⟨period, heq⟩ := hbegins
        cases heq
    | _ => cases hbegins
  | kept hstage => exact h id script seconds (List.mem_of_getElem? hstage)
  | dropped hended => cases hended
  | @stepped label stage haction htask hcourse =>
    have hstage : s.roster.stages[u]? = some stage := stage_of_task htask
    cases hcourse with
    | wait => exact h id script seconds (List.mem_of_getElem? hstage)

/-- A statement is opened only with the id that is allocated for it. -/
theorem opened_of_entryAt (h : s.ChoosesNoId) {action : Action}
    (haction : action.choosesId = false) :
    (s.entryAt action).opened = [] ∨
      (s.entryAt action).allocated = 1 ∧ (s.entryAt action).opened = [s.nextId.1.toUInt32] := by
  have hsubmitted (id : UInt16) (script : String) (seconds : UInt32) :
      submitted id script seconds = [] ∨ submitted id script seconds = [id.toUInt32] := by
    unfold submitted
    split
    · exact .inr rfl
    · exact .inl rfl
  unfold entryAt
  split
  · cases haction
  · exact .inl rfl
  · split
    · rename_i t task htask
      split
      · exact .inl rfl
      · unfold callEntry
        split
        · rename_i id script seconds hstage
          refine absurd ?_ (h id script seconds)
          exact List.mem_map.mpr ⟨task, List.mem_of_getElem? htask, hstage⟩
        · rename_i script _
          exact (hsubmitted s.nextId.1 script s.config.statementTimeoutSeconds).imp id
            fun hone => ⟨rfl, hone⟩
        · split <;> exact .inl rfl
        · split <;> exact .inl rfl
        · exact .inl rfl
    · exact .inl rfl
  · exact .inl rfl

/-- As long as nobody chooses an id, all ids are those that were allocated. -/
theorem allocates_run {allocated : Nat} {before : List Nat}
    (h : s.ledger.Allocates allocated before) (hnone : s.ChoosesNoId) {actions : List Action}
    (hactions : ∀ action ∈ actions, action.choosesId = false) :
    (actions.foldl act s).ledger.Allocates (allocated + Entry.allocations (s.entries actions))
      (before ++ Entry.serials allocated (s.entries actions)) := by
  induction actions generalizing s allocated before with
  | nil => simpa [entries, Entry.allocations, Entry.serials] using h
  | cons action actions ih =>
    have hfirst := hactions action (by simp)
    have hid : s.nextId.1.toUInt32 = statementId (allocated + 1) := by
      have hlast : s.lastId = allocated % idLimit := h.lastId
      rw [statementId, ← followingId_mod, ← hlast]
      rfl
    have hopened := opened_of_entryAt hnone hfirst
    rw [hid] at hopened
    obtain ⟨phase, -, hledger⟩ := s.aged_act action
    have hadded := h.add hopened
    have hafter : (s.act action).ledger.Allocates (allocated + (s.entryAt action).allocated)
        (before ++ List.replicate (s.entryAt action).opened.length
          (allocated + (s.entryAt action).allocated)) := by
      rw [hledger]
      exact ⟨hadded.lastId, hadded.ids, hadded.increasing, hadded.bounded⟩
    have hrest := ih hafter (hnone.act hfirst) fun action hmem =>
      hactions action (List.mem_cons_of_mem _ hmem)
    simpa only [entries, Entry.allocations, Entry.serials, List.map_cons, List.sum_cons,
      Nat.add_assoc, List.append_assoc, List.foldl_cons] using hrest

end Link

/-! ### Handlers that wait were registered -/

namespace Roster

variable {r r' : Roster} {log : List Event}

/-- Who stands in the queue, or is about to be put back in front of it, was registered. -/
theorem Moves.registered {events : List Event} (hmoves : r.Moves events r')
    (h : ∀ handler ∈ r.lineup, handler ∈ Event.registeredIn log) :
    ∀ handler ∈ r'.lineup, handler ∈ Event.registeredIn (log ++ events) := by
  refine hmoves.invariant
    (P := fun r log => ∀ handler ∈ r.lineup, handler ∈ Event.registeredIn log) log ?_ h
  intro r r' event log _ hmove h handler hmem
  have hkept (hbefore : handler ∈ r.lineup) :
      handler ∈ Event.registeredIn (log ++ event.toList) :=
    (registeredIn_sublist log _).subset (h handler hbefore)
  have hqueue := hmove.queueMove
  generalize r'.lineup = lineup at hqueue hmem
  cases hqueue with
  | thin _ hpart => exact hkept (hpart.subset hmem)
  | join t other hcarried =>
    rcases List.mem_append.mp hmem with hmem | hmem
    · exact hkept hmem
    · obtain rfl := List.mem_singleton.mp hmem
      rw [Event.registeredIn_append]
      exact List.mem_append_right _ (List.mem_singleton_self handler)
  | @take frame key hsame hfind =>
    rw [hsame] at hkept
    rcases List.mem_cons.mp hmem with rfl | hmem
    · exact hkept (List.mem_of_find?_eq_some hfind)
    · exact hkept (List.mem_of_mem_erase hmem)

end Roster

/-! ### Statements in flight -/

namespace Link

/-- A statement whose handler was registered and that has not ended. -/
structure InFlight (s : Link) (log : List Event) (key : Nat) (c : Channel) : Prop where
  /-- The handler of the statement was registered. -/
  registered : .statement key ∈ Event.registeredIn log
  /-- The statement has this channel. -/
  channel : s.channels[key]? = some c
  /-- The statement has not ended. -/
  live : c.isDone = false

/-- Which ids the statements have, given how many were allocated and the serial numbers of
theirs. -/
structure AllocatesIds (s : Link) (log : List Event) (allocated : Nat) (serials : List Nat) :
    Prop where
  /-- The later a statement was submitted, the later its id was allocated. -/
  increasing : serials.Pairwise (· < ·)
  /-- Each statement has the id that was allocated for it. -/
  ids : ∀ (key : Nat) (c : Channel), s.channels[key]? = some c →
    ∃ serial ≤ allocated, serials[key]? = some serial ∧ c.id = statementId serial
  /-- Two statements have the same id if and only if a multiple of the limit lies between them. -/
  same : ∀ (key key' : Nat) (c c' : Channel) (serial serial' : Nat),
    s.channels[key]? = some c → s.channels[key']? = some c' →
      serials[key]? = some serial → serials[key']? = some serial' →
        (c.id = c'.id ↔ serial % idLimit = serial' % idLimit)
  /-- The statements in flight have distinct ids, and no frame for one of them is handed to another
  one, as long as fewer ids than there are have been allocated since the id of any of them. -/
  distinct : (∀ (key : Nat) (c : Channel) (serial : Nat), s.InFlight log key c →
      serials[key]? = some serial → allocated < serial + idLimit) →
    (∀ (key key' : Nat) (c c' : Channel), s.InFlight log key c → s.InFlight log key' c' →
        c.id = c'.id → key = key') ∧
      ∀ (frame : Frame) (key : Nat) (c : Channel), s.InFlight log key c →
        s.accepts frame (.statement key) →
          ∀ key', (s.takeMatch frame).1 = some (.statement key') → key' = key

variable {s : Link}

/-- A statement has the id that was allocated under its serial number. -/
theorem exists_serial {allocated : Nat} {serials : List Nat}
    (h : s.ledger.Allocates allocated serials) {key : Nat} {c : Channel}
    (hc : s.channels[key]? = some c) :
    ∃ serial ≤ allocated, serials[key]? = some serial ∧ c.id = statementId serial := by
  have hid : (serials.map statementId)[key]? = some c.id := by
    rw [← h.ids]
    change (s.channels.map (·.id))[key]? = _
    rw [List.getElem?_map, hc]
    rfl
  rw [List.getElem?_map, Option.map_eq_some_iff] at hid
  obtain ⟨serial, hserial, hid⟩ := hid
  exact ⟨serial, h.bounded serial (List.mem_of_getElem? hserial), hserial, hid.symm⟩

/-- Two statements with one id are the same if their serial numbers are among the latest. -/
theorem eq_of_near {allocated : Nat} {serials : List Nat}
    (h : s.ledger.Allocates allocated serials) {key key' : Nat} {c c' : Channel}
    (hc : s.channels[key]? = some c) (hc' : s.channels[key']? = some c') (hid : c.id = c'.id)
    (hnear : ∀ serial, serials[key]? = some serial → allocated < serial + idLimit)
    (hnear' : ∀ serial, serials[key']? = some serial → allocated < serial + idLimit) :
    key = key' := by
  obtain ⟨serial, hle, hserial, hown⟩ := exists_serial h hc
  obtain ⟨serial', hle', hserial', hown'⟩ := exists_serial h hc'
  rw [hown, hown', statementId_eq_iff] at hid
  obtain rfl := serial_eq_of_near hid hle hle' (hnear serial hserial) (hnear' serial' hserial')
  have hnodup : serials.Nodup := h.increasing.imp fun hlt => Nat.ne_of_lt hlt
  exact (List.getElem?_inj (List.getElem?_eq_some_iff.mp hserial).1 hnodup).mp
    (hserial.trans hserial'.symm)

/-- Statements that take a common frame have the same id. -/
theorem id_eq_of_accepts {frame : Frame} {key key' : Nat} {c c' : Channel}
    (hc : s.channels[key]? = some c) (hc' : s.channels[key']? = some c')
    (htakes : s.accepts frame (.statement key)) (htakes' : s.accepts frame (.statement key')) :
    c.id = c'.id := by
  simp only [accepts, hc, hc', Option.any_some, Channel.isCandidate, Bool.and_eq_true,
    beq_iff_eq] at htakes htakes'
  exact Option.some.inj (htakes.2.symm.trans htakes'.2)

/-- In a run in which the link chooses the ids of all statements, they are those that were allocated
one after another. -/
theorem allocatesIds_runOf (config : Config) (actions : List Action)
    (hactions : ∀ action ∈ actions, action.choosesId = false) :
    (runOf config actions).AllocatesIds (journalOf config actions)
      (Entry.allocations ((fresh config).entries actions))
      (Entry.serials 0 ((fresh config).entries actions)) := by
  have hfresh : (fresh config).ledger.Allocates 0 [] := ⟨rfl, rfl, .nil, by simp⟩
  have hnone : (fresh config).ChoosesNoId := fun _ _ _ => List.not_mem_nil
  have hrun := allocates_run hfresh hnone hactions
  rw [Nat.zero_add, List.nil_append] at hrun
  have horder := inOrder_runOf config actions
  have hmoves : (fresh config).roster.Moves (journalOf config actions)
      (runOf config actions).roster := (fresh config).run_moves actions
  have hempty : ∀ handler ∈ (fresh config).roster.lineup, handler ∈ Event.registeredIn [] :=
    fun _ hmem => by cases hmem
  have hregistered := hmoves.registered hempty
  change (runOf config actions).ledger.Allocates _ _ at hrun
  generalize Entry.allocations ((fresh config).entries actions) = allocated at hrun ⊢
  generalize Entry.serials 0 ((fresh config).entries actions) = serials at hrun ⊢
  generalize journalOf config actions = log at horder hregistered ⊢
  generalize runOf config actions = s at hrun horder hregistered ⊢
  refine ⟨hrun.increasing, fun key c hc => exists_serial hrun hc, ?_, fun hnear => ⟨?_, ?_⟩⟩
  · intro key key' c c' serial serial' hc hc' hserial hserial'
    obtain ⟨n, -, hn, hid⟩ := exists_serial hrun hc
    obtain ⟨n', -, hn', hid'⟩ := exists_serial hrun hc'
    rw [hserial, Option.some.injEq] at hn
    rw [hserial', Option.some.injEq] at hn'
    rw [hid, hid', ← hn, ← hn', statementId_eq_iff]
  · intro key key' c c' h h' hid
    exact eq_of_near hrun h.channel h'.channel hid (fun serial => hnear key c serial h)
      fun serial => hnear key' c' serial h'
  · intro frame key c h haccepts key' htaken
    rw [takeMatch_fst] at htaken
    have hmem := List.mem_of_find?_eq_some htaken
    have htakes := List.find?_some htaken
    rw [accepts_roster] at htakes
    -- The one that takes the frame waits, so it is in flight as well.
    obtain ⟨c', hc', hlive⟩ : ∃ c', s.channels[key']? = some c' ∧ c'.isDone = false :=
      Roster.goesOn_statement_iff.mp ((horder.tenure key').goesOn_of_mem hmem)
    have h' : s.InFlight log key' c' :=
      ⟨hregistered _ (s.roster.pending_sublist_lineup.subset hmem), hc', hlive⟩
    exact eq_of_near hrun hc' h.channel (id_eq_of_accepts hc' h.channel htakes haccepts)
      (fun serial => hnear key' c' serial h') fun serial => hnear key c serial h

/-- A statement is submitted with the next id and its frame written. -/
def execution (label : Nat) : List Action :=
  .call label (.execute "") rfl :: List.replicate 4 (.turn (.task label))

/-- Two statements in flight, one right after the other. -/
theorem allocatesIds_twoExecutions :
    (runOf (.defaults "" 0) (execution 0 ++ execution 1)).AllocatesIds
      (journalOf (.defaults "" 0) (execution 0 ++ execution 1)) 2 [1, 2] ∧
    (runOf (.defaults "" 0) (execution 0 ++ execution 1)).pending = [.statement 0, .statement 1] :=
  ⟨allocatesIds_runOf (.defaults "" 0) (execution 0 ++ execution 1) (by decide), by decide⟩

/-! ### Ids that come again -/

/-- Allocating ids changes nothing but the latest one. -/
theorem act_allocate (s : Link) (count : Nat) :
    s.act (.allocate count) = { s with lastId := followingId^[count] s.lastId } := by
  change (s.nextIds count).2 = _
  induction s, count using nextIds.induct with
  | case1 s => rfl
  | case2 s => rfl
  | case3 s count ih =>
    have hfirst : s.nextIds (count + 2) = s.nextId.2.nextIds (count + 1) := rfl
    rw [hfirst, ih]
    rfl

/-- A registered statement that goes on is in flight under its id. -/
theorem exists_inFlight {s : Link} {log : List Event} {key : Nat} {id : UInt32}
    (hregistered : .statement key ∈ Event.registeredIn log)
    (hchannel : (s.channels[key]?).map (fun c => (c.id, c.isDone)) = some (id, false)) :
    ∃ c, s.InFlight log key c ∧ c.id = id := by
  obtain ⟨c, hc, heq⟩ := Option.map_eq_some_iff.mp hchannel
  obtain ⟨hid, hlive⟩ := Prod.mk.inj heq
  exact ⟨c, ⟨hregistered, hc, hlive⟩, hid⟩

/-- Ids are allocated between two statements. -/
def apart (count : Nat) : List Action := execution 0 ++ .allocate count :: execution 1

/-- The first statement is in flight, and its id is the next one again. -/
def wrapped : Link := { runOf (.defaults "" 0) (execution 0) with lastId := 0 }

/-- A statement, the ids that somebody allocates, and another statement come one after another. -/
theorem runOf_apart {count : Nat} (h : (1 + count) % idLimit = 0) :
    runOf (.defaults "" 0) (apart count) = (execution 1).foldl act wrapped ∧
      journalOf (.defaults "" 0) (apart count) =
        journalOf (.defaults "" 0) (execution 0) ++ wrapped.journal (execution 1) := by
  have hwrapped : (runOf (.defaults "" 0) (execution 0)).act (.allocate count) = wrapped := by
    have hlast : (runOf (.defaults "" 0) (execution 0)).lastId = 1 % idLimit := by decide
    rw [act_allocate, hlast, iterate_followingId, h, wrapped]
  constructor
  · rw [← hwrapped, runOf, apart, List.foldl_append, List.foldl_cons, runOf]
  · rw [← hwrapped, journalOf, apart, journal_append, journal]
    rfl

/-- If all other ids are allocated between two statements, they have the same id. -/
theorem not_forall_distinct :
    ¬ ∀ (config : Config) (actions : List Action),
      (∀ action ∈ actions, action.choosesId = false) →
        ∀ (key key' : Nat) (c c' : Channel),
          (runOf config actions).InFlight (journalOf config actions) key c →
            (runOf config actions).InFlight (journalOf config actions) key' c' →
              c.id = c'.id → key = key' := by
  intro h
  have hall := h (.defaults "" 0) (apart 65534) (by decide)
  have haround : (1 + 65534) % idLimit = 0 := by decide
  obtain ⟨hrun, hlog⟩ := runOf_apart haround
  rw [hrun, hlog] at hall
  obtain ⟨c, hc, hid⟩ : ∃ c, ((execution 1).foldl act wrapped).InFlight
      (journalOf (.defaults "" 0) (execution 0) ++ wrapped.journal (execution 1)) 0 c ∧ c.id = 1 :=
    exists_inFlight (by decide) (by decide)
  obtain ⟨c', hc', hid'⟩ : ∃ c, ((execution 1).foldl act wrapped).InFlight
      (journalOf (.defaults "" 0) (execution 0) ++ wrapped.journal (execution 1)) 1 c ∧ c.id = 1 :=
    exists_inFlight (by decide) (by decide)
  exact absurd (hall 0 1 c c' hc hc' (hid.trans hid'.symm)) (by decide)

end Link

end BeeProtocol
