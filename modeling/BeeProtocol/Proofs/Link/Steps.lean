import BeeProtocol.Proofs.Link.Standing
import BeeProtocol.Proofs.Lists

/-!
# Steps of the custody

A custody is sound for a handler if the reader goes on exactly as long as the link is open, and if
the handler stands where its account tells. Every kind of change that a link makes to its custody
keeps this.
-/

namespace BeeProtocol

namespace Custody

/-- The places of the handler under a key. -/
def places (c : Custody) (key : Nat) : Places where
  carried := c.stages.countP fun stage => stage.handler? == some key
  waiting := c.waiting.count key
  hand := c.reading.hand key

/-- Whether the reader goes on. -/
def goesOn (c : Custody) : Bool := !c.isAborted && !c.reading.isStopped

/-- The reader goes on as long as the link is open, and a handler stands where its account tells. -/
structure Sound (key : Nat) (account : Account) (c : Custody) : Prop where
  /-- The reader goes on exactly as long as the link is open. -/
  reader : c.isClosed = !c.goesOn
  /-- The handler is where its account tells. -/
  standing : Standing account (c.places key) c.entries[key]? c.isClosed

variable {c : Custody} {key t : Nat} {account : Account} {old new : Stage}

/-- A call that does not carry a handler any more carried it before. -/
theorem countP_release (h : c.stages[t]? = some old) {other : Nat}
    (hold : old.handler? = some other) (hnew : new.handler? = none) (key : Nat) :
    c.stages.countP (fun stage => stage.handler? == some key) =
      (c.stages.set t new).countP (fun stage => stage.handler? == some key) +
        if other = key then 1 else 0 := by
  have hcount := Stage.countP_set h new fun stage => stage.handler? == some key
  rw [hold, hnew] at hcount
  by_cases hkey : other = key
  · simpa [hkey] using hcount.symm
  · simpa [hkey, beq_false_of_ne hkey] using hcount.symm

/-- A call that moves with its handler leaves all handlers where they are. -/
theorem places_move (h : c.stages[t]? = some old) (hsame : new.handler? = old.handler?) :
    (c.move t new).places key = c.places key := by
  have hcount := Stage.countP_set h new fun stage => stage.handler? == some key
  rw [hsame] at hcount
  unfold places move
  dsimp only
  congr 1
  omega

/-- A call that goes on with the handler that it had leaves the custody sound. -/
theorem Sound.move (hc : c.Sound key account) (h : c.stages[t]? = some old)
    (hsame : new.handler? = old.handler?) : (c.move t new).Sound key account := by
  refine ⟨hc.reader, ?_⟩
  rw [places_move h hsame]
  exact hc.standing

/-- A new call that carries no handler leaves the custody sound. -/
theorem Sound.addCall (hc : c.Sound key account) (new : Stage) (hnone : new.handler? = none) :
    Sound key account { c with stages := c.stages ++ [new] } := by
  refine ⟨hc.reader, ?_⟩
  have hcount : (c.stages ++ [new]).countP (fun stage => stage.handler? == some key) =
      c.stages.countP fun stage => stage.handler? == some key := by
    simp [List.countP_append, hnone]
  unfold places
  rw [hcount]
  exact hc.standing

/-- Letting go of one handler leaves the other statements alone. -/
theorem getElem?_letGo {other : Nat} (hne : other ≠ key) :
    (c.letGo (.statement other)).entries[key]? = c.entries[key]? := by
  simp [letGo, hne]

/-- Letting go of a handler changes no id. -/
theorem id_letGo (c : Custody) (other key : Nat) :
    (c.letGo (.statement other)).entries[key]?.map (·.1) = c.entries[key]?.map (·.1) := by
  simp only [letGo, List.getElem?_modify]
  cases c.entries[key]? with
  | none => rfl
  | some entry =>
    by_cases hkey : other = key
    · simp [hkey, Channel.endEntry, apply_ite]
    · simp [hkey]

/-- A call that ends with the handler that it carries lets go of it. -/
theorem Sound.refuse (hc : c.Sound key account) (h : c.stages[t]? = some old) {other : Nat}
    (hold : old.handler? = some other) (hnew : new.handler? = none) :
    ((c.letGo (.statement other)).move t new).Sound key account := by
  have hcarried := countP_release h hold hnew key
  have hstanding := hc.standing
  unfold places at hstanding
  rw [hcarried] at hstanding
  refine ⟨hc.reader, ?_⟩
  unfold places
  by_cases hkey : other = key
  · subst hkey
    rw [if_pos rfl] at hstanding
    obtain ⟨entry, hentry⟩ := hstanding.exists_entry_of_carried
    have hafter : (c.letGo (.statement other)).entries[other]? =
        some (Channel.endEntry .connectionClosed entry) := by
      simp [letGo, hentry]
    dsimp only [Custody.move, letGo] at hafter ⊢
    rw [hafter]
    exact hstanding.refuse _
  · have hentry := getElem?_letGo (c := c) hkey
    dsimp only [Custody.move, letGo] at hentry ⊢
    rw [if_neg hkey] at hstanding
    rw [hentry]
    exact hstanding

/-- A call of an open link registers the handler that it carries. -/
theorem Sound.register (hc : c.Sound key account) (h : c.stages[t]? = some old) {other : Nat}
    (hold : old.handler? = some other) (hnew : new.handler? = none) (hopen : c.isClosed = false) :
    ({ c with waiting := c.waiting ++ [other] }.move t new).Sound key
      (account.note key (.registered other)) := by
  have hcarried := countP_release h hold hnew key
  have hstanding := hc.standing
  unfold places at hstanding
  rw [hcarried, hopen] at hstanding
  refine ⟨hc.reader, ?_⟩
  unfold places
  dsimp only [Custody.move]
  rw [hopen, List.count_append]
  by_cases hkey : other = key
  · subst hkey
    rw [if_pos rfl] at hstanding
    simpa using hstanding.register
  · rw [if_neg hkey] at hstanding
    rw [Account.note, if_neg hkey]
    simpa [hkey] using hstanding

/-- Whatever leaves a handler, its statement and the reader alone leaves the custody sound. -/
theorem Sound.congr (hc : c.Sound key account) {c' : Custody}
    (hplaces : c'.places key = c.places key) (hentry : c'.entries[key]? = c.entries[key]?)
    (hclosed : c'.isClosed = c.isClosed) (hgoesOn : c'.goesOn = c.goesOn) :
    c'.Sound key account := by
  refine ⟨by rw [hclosed, hgoesOn]; exact hc.reader, ?_⟩
  rw [hplaces, hentry, hclosed]
  exact hc.standing

/-! ### New statements -/

/-- A statement is opened together with a call that carries its handler. -/
theorem Sound.open_carried (hc : c.Sound key account) (id : UInt32) {stages : List Stage}
    (hcount : stages.countP (fun stage => stage.handler? == some key) =
      (c.stages.countP fun stage => stage.handler? == some key) +
        if key = c.entries.length then 1 else 0) :
    Sound key account
      { c with stages := stages, entries := c.entries ++ [(id, Signal.answerOf [])] } := by
  refine ⟨hc.reader, ?_⟩
  have hstanding := hc.standing
  unfold places at hstanding ⊢
  dsimp only
  rw [hcount, Lists.getElem?_append_singleton]
  split
  · rename_i hkey
    rw [List.getElem?_eq_none (by omega)] at hstanding
    exact (hstanding.opened id).1
  · exact hstanding

/-- A statement is opened whose handler is let go of at once. -/
theorem Sound.open_refused (hc : c.Sound key account) {stages : List Stage}
    (hcount : stages.countP (fun stage => stage.handler? == some key) =
      c.stages.countP fun stage => stage.handler? == some key)
    (entry : StatementEntry) :
    Sound key account { c with stages := stages, entries := c.entries ++ [entry] } := by
  refine ⟨hc.reader, ?_⟩
  have hstanding := hc.standing
  unfold places at hstanding ⊢
  dsimp only
  rw [hcount, Lists.getElem?_append_singleton]
  split
  · rename_i hkey
    rw [List.getElem?_eq_none (by omega)] at hstanding
    exact (hstanding.opened 0).2 entry
  · exact hstanding

/-! ### Closing -/

/-- Letting go of handlers changes only the statements they belong to, and no id. -/
theorem foldl_letGo (keys : List Nat) (c : Custody) :
    ∃ entries,
      keys.foldl (fun c key => c.letGo (.statement key)) c = { c with entries := entries } ∧
        ∀ key, entries[key]?.map (·.1) = c.entries[key]?.map (·.1) ∧
          (keys.count key = 0 → entries[key]? = c.entries[key]?) := by
  induction keys generalizing c with
  | nil => exact ⟨c.entries, rfl, fun _ => ⟨rfl, fun _ => rfl⟩⟩
  | cons other keys ih =>
    obtain ⟨entries, hfold, hentries⟩ := ih (c.letGo (.statement other))
    refine ⟨entries, hfold, ?_⟩
    intro key
    obtain ⟨hid, hsame⟩ := hentries key
    constructor
    · rw [hid, id_letGo]
    · intro hcount
      rw [List.count_cons] at hcount
      have hkey : other ≠ key := by
        rintro rfl
        simp at hcount
      rw [hsame (by omega), getElem?_letGo hkey]

/-- Closing changes neither the calls nor the reader. -/
theorem shut_eq (c : Custody) :
    ∃ waiting entries,
      c.shut = { c with isClosed := true, waiting := waiting, entries := entries } := by
  unfold shut
  split
  · rename_i hclosed
    refine ⟨c.waiting, c.entries, ?_⟩
    rw [← hclosed]
  · obtain ⟨entries, hfold, -⟩ :=
      foldl_letGo c.waiting { c with isClosed := true, waiting := [] }
    exact ⟨[], entries, hfold⟩

/-- Closing moves no call. -/
@[simp] theorem shut_stages (c : Custody) : c.shut.stages = c.stages := by
  obtain ⟨waiting, entries, hshut⟩ := c.shut_eq
  rw [hshut]

/-- What is closed is closed. -/
@[simp] theorem shut_isClosed (c : Custody) : c.shut.isClosed = true := by
  obtain ⟨waiting, entries, hshut⟩ := c.shut_eq
  rw [hshut]

/-- Closing leaves the reader where it is. -/
@[simp] theorem shut_reading (c : Custody) : c.shut.reading = c.reading := by
  obtain ⟨waiting, entries, hshut⟩ := c.shut_eq
  rw [hshut]

/-- Stopping the reader changes nothing else. -/
theorem stop_eq (c : Custody) : ∃ isAborted, c.stop = { c with isAborted := isAborted } := by
  unfold stop
  split
  · exact ⟨c.isAborted, rfl⟩
  · exact ⟨true, rfl⟩

/-- Stopping the reader moves no call. -/
@[simp] theorem stop_stages (c : Custody) : c.stop.stages = c.stages := by
  obtain ⟨isAborted, hstop⟩ := c.stop_eq
  rw [hstop]

/-- A reader that is stopped does not go on. -/
theorem stop_goesOn (c : Custody) : c.stop.goesOn = false := by
  unfold stop goesOn
  split
  · rename_i hstopped
    rw [hstopped, ReaderStage.isStopped, Bool.not_true, Bool.and_false]
  · rfl

/-- Closing takes the handlers that wait. -/
theorem Sound.shut (hc : c.Sound key account) :
    c.shut.places key = ⟨(c.places key).carried, 0, (c.places key).hand⟩ ∧
      Standing account (c.shut.places key) c.shut.entries[key]? true := by
  have hstanding := hc.standing
  cases hclosed : c.isClosed with
  | true =>
    rw [hclosed] at hstanding
    have hshut : c.shut = c := by
      unfold Custody.shut
      rw [if_pos hclosed]
    have hnone : (c.places key).waiting = 0 := hstanding.waiting_eq_zero
    rw [hshut, ← hnone]
    exact ⟨rfl, hstanding⟩
  | false =>
    obtain ⟨entries, hfold, hentries⟩ :=
      foldl_letGo c.waiting { c with isClosed := true, waiting := [] }
    have hshut : c.shut = { c with isClosed := true, waiting := [], entries := entries } := by
      unfold Custody.shut
      rw [if_neg (by simp [hclosed]), hfold]
    obtain ⟨hid, hsame⟩ := hentries key
    rw [hshut]
    exact ⟨rfl, hstanding.shut hid hsame⟩

/-- Failing the link leaves the custody sound. -/
theorem Sound.fail (hc : c.Sound key account) : c.shut.stop.Sound key account := by
  obtain ⟨isAborted, hstop⟩ := c.shut.stop_eq
  have hgoesOn := c.shut.stop_goesOn
  rw [hstop] at hgoesOn ⊢
  constructor
  · rw [hgoesOn, Bool.not_false]
    exact c.shut_isClosed
  · dsimp only
    rw [shut_isClosed]
    exact hc.shut.2

/-- The reader closes the link at the end of the stream. -/
theorem Sound.close (hc : c.Sound key account) (hreading : c.reading = .reading) :
    Sound key account { c.shut with reading := .stopped } := by
  obtain ⟨hplaces, hstanding⟩ := hc.shut
  have hsame : ({ c.shut with reading := .stopped } : Custody).places key = c.shut.places key := by
    unfold places
    dsimp only
    rw [shut_reading, hreading]
    rfl
  constructor
  · simp [goesOn, ReaderStage.isStopped]
  · rw [hsame]
    dsimp only
    rw [shut_isClosed]
    exact hstanding

/-! ### The reader -/

/-- A reader that does not stop goes on as before. -/
theorem goesOn_eq {waiting : List Nat}
    {entries : List StatementEntry}
    {stage : ReaderStage} (hstage : stage.isStopped = c.reading.isStopped) :
    goesOn { c with waiting := waiting, entries := entries, reading := stage } = c.goesOn := by
  unfold goesOn
  rw [hstage]

/-- What the reader does with other handlers leaves the handler where it is. -/
theorem Sound.elsewhere (hc : c.Sound key account) {waiting : List Nat}
    {entries : List StatementEntry}
    {stage : ReaderStage} (hwaiting : waiting.count key = c.waiting.count key)
    (hentry : entries[key]? = c.entries[key]?) (hhand : stage.hand key = c.reading.hand key)
    (hstage : stage.isStopped = c.reading.isStopped) :
    Sound key account { c with waiting := waiting, entries := entries, reading := stage } := by
  refine hc.congr ?_ hentry rfl (goesOn_eq hstage)
  unfold places
  rw [hwaiting, hhand]

/-- A frame that is not taken for a handler leaves the handler where it is. -/
theorem Sound.read_other (hc : c.Sound key account) (hreading : c.reading = .reading)
    (hopen : c.isClosed = false) {frame : Frame} {waiting : List Nat} {stage : ReaderStage}
    (hwaiting : waiting.count key = c.waiting.count key) (hhand : stage.hand key = .empty)
    (hstage : stage.isStopped = false)
    (hother : c.waiting.count key ≠ 0 →
      ∀ entry, c.entries[key]? = some entry → frame.isFor entry.1 = false) :
    Sound key (account.note key (.read frame)) { c with waiting := waiting, reading := stage } := by
  have hstanding := hc.standing
  unfold places at hstanding
  rw [hreading, hopen] at hstanding
  constructor
  · have hstill : stage.isStopped = c.reading.isStopped := by rw [hstage, hreading]; rfl
    rw [goesOn_eq hstill]
    exact hc.reader
  · unfold places
    dsimp only
    rw [hwaiting, hhand, hopen]
    exact hstanding.read_other key hother

/-- A frame that is taken for a handler goes with the handler to the reader. -/
theorem Sound.read_own (hc : c.Sound key account) (hreading : c.reading = .reading)
    (hopen : c.isClosed = false) {frame : Frame} {waiting : List Nat} {stage : ReaderStage}
    (hwaiting : c.waiting.count key = waiting.count key + 1)
    (hhand : stage.hand key = .payload frame.payload) (hstage : stage.isStopped = false)
    {entry : StatementEntry}
    (hentry : c.entries[key]? = some entry) (hown : frame.isFor entry.1) :
    Sound key (account.note key (.read frame)) { c with waiting := waiting, reading := stage } := by
  have hstanding := hc.standing
  unfold places at hstanding
  rw [hreading, hopen, hwaiting, hentry] at hstanding
  constructor
  · have hstill : stage.isStopped = c.reading.isStopped := by rw [hstage, hreading]; rfl
    rw [goesOn_eq hstill]
    exact hc.reader
  · unfold places
    dsimp only
    rw [hhand, hopen, hentry]
    exact hstanding.read_own key hown

/-- The statement of a handler that the reader holds is as its payloads left it, and goes on. -/
theorem Sound.exists_entry (hc : c.Sound key account) (hholds : c.reading.hand key ≠ .empty) :
    ∃ id, c.entries[key]? = some (account.entry id) ∧
      account.handed.any Signal.endsWith = false :=
  hc.standing.exists_entry hholds

/-- A reader that holds a payload for a handler. -/
theorem Sound.standing_decoding (hc : c.Sound key account) {payload : List UInt8}
    (hreading : c.reading = .decoding (.statement key) payload) {id : UInt32}
    (hentry : c.entries[key]? = some (account.entry id)) :
    Standing account ⟨(c.places key).carried, (c.places key).waiting, .payload payload⟩
      (some (account.entry id)) c.isClosed := by
  have hstanding := hc.standing
  have hhand : (c.places key).hand = .payload payload := by
    unfold places
    rw [hreading, ReaderStage.hand, if_pos rfl]
  rw [hentry] at hstanding
  rw [← hhand]
  exact hstanding

/-- A handler is given a payload and stays with the reader, which has a row to store. -/
theorem Sound.hand_row (hc : c.Sound key account) {payload : List UInt8}
    (hreading : c.reading = .decoding (.statement key) payload) {id : UInt32}
    (hentry : c.entries[key]? = some (account.entry id))
    (hgoesOn : Signal.endsWith payload = false) (row : Row) :
    Sound key (account.note key (.handed key payload))
      { c with
        entries := c.entries.set key ((account.note key (.handed key payload)).entry id)
        reading := .storing key row } := by
  have hkey := (List.getElem?_eq_some_iff.mp hentry).1
  have hafter := (hc.standing_decoding hreading hentry).hand_row key hgoesOn
  constructor
  · have hstill : (ReaderStage.storing key row).isStopped = c.reading.isStopped := by
      rw [hreading]
      rfl
    rw [goesOn_eq hstill]
    exact hc.reader
  · simpa [places, ReaderStage.hand, hkey] using hafter

/-- A handler is given a payload that ends its statement, and is done with. -/
theorem Sound.hand_end (hc : c.Sound key account) {payload : List UInt8}
    (hreading : c.reading = .decoding (.statement key) payload) {id : UInt32}
    (hentry : c.entries[key]? = some (account.entry id)) (hends : Signal.endsWith payload) :
    Sound key (account.note key (.handed key payload))
      { c with
        entries := c.entries.set key ((account.note key (.handed key payload)).entry id)
        reading := .reading } := by
  have hkey := (List.getElem?_eq_some_iff.mp hentry).1
  have hafter := (hc.standing_decoding hreading hentry).hand_end key hends
  constructor
  · have hstill : ReaderStage.reading.isStopped = c.reading.isStopped := by
      rw [hreading]
      rfl
    rw [goesOn_eq hstill]
    exact hc.reader
  · simpa [places, ReaderStage.hand, hkey] using hafter

/-- After a row is stored, its handler waits again. -/
theorem Sound.putBack (hc : c.Sound key account) (hopen : c.isClosed = false) {row : Row}
    (hreading : c.reading = .storing key row) :
    Sound key account { c with waiting := key :: c.waiting, reading := .reading } := by
  have hstanding := hc.standing
  unfold places at hstanding
  rw [hreading, ReaderStage.hand, if_pos rfl, hopen] at hstanding
  have hreader := hc.reader
  simp only [goesOn, hreading, ReaderStage.isStopped] at hreader
  refine ⟨hreader, ?_⟩
  simpa [places, ReaderStage.hand, hopen] using hstanding.putBack

/-- A handler is given a payload that goes on without a row: it waits again, as it does after a row
is stored. -/
theorem Sound.hand_back (hc : c.Sound key account) (hopen : c.isClosed = false)
    {payload : List UInt8} (hreading : c.reading = .decoding (.statement key) payload)
    {id : UInt32} (hentry : c.entries[key]? = some (account.entry id))
    (hgoesOn : Signal.endsWith payload = false) :
    Sound key (account.note key (.handed key payload))
      { c with
        entries := c.entries.set key ((account.note key (.handed key payload)).entry id)
        waiting := key :: c.waiting
        reading := .reading } := by
  have hstored := hc.hand_row hreading hentry hgoesOn ⟨[], []⟩
  exact hstored.putBack hopen rfl

/-- The reader of a closed link lets go of the handler that it holds and stops. -/
theorem Sound.drop (hc : c.Sound key account) (hclosed : c.isClosed = true)
    {entries : List StatementEntry}
    (hid : entries[key]?.map (·.1) = c.entries[key]?.map (·.1))
    (hsame : c.reading.hand key = .empty → entries[key]? = c.entries[key]?) :
    Sound key account { c with entries := entries, reading := .stopped } := by
  have hstanding := hc.standing
  unfold places at hstanding
  rw [hclosed] at hstanding
  refine ⟨by simp [goesOn, hclosed, ReaderStage.isStopped], ?_⟩
  have hplaces : ({ c with entries := entries, reading := .stopped } : Custody).places key =
      ⟨c.stages.countP (fun stage => stage.handler? == some key), c.waiting.count key, .empty⟩ := by
    simp [places, ReaderStage.hand]
  rw [hplaces, hclosed]
  by_cases hholds : c.reading.hand key = .empty
  · rw [hsame hholds, ← hholds]
    exact hstanding
  · obtain ⟨after, hafter, hfirst⟩ : ∃ after, entries[key]? = some after ∧
        c.entries[key]?.map (·.1) = some after.1 := by
      obtain ⟨id, hentry, -⟩ := hstanding.exists_entry hholds
      rw [hentry] at hid ⊢
      obtain ⟨after, hafter, hfirst⟩ := Option.map_eq_some_iff.mp hid
      exact ⟨after, hafter, congrArg some hfirst.symm⟩
    rw [hafter]
    exact hstanding.letGo hfirst hholds

end Custody

end BeeProtocol
