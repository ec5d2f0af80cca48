import BeeProtocol.Proofs.Link.Dispatch

/-!
# Fair courses

A course goes on for ever. It is fair if a reader that was woken gets a turn sooner or later, and if
the callers of a response again and again take a row from it, find that there is none or drop it.
On a fair course the reader gets through with every row, so it reads on until the stream has ended
and closes the link.
-/

namespace BeeProtocol

/-- The caller does not hold up the reader: the response was dropped, or there is no row that could
be taken from it. -/
def Channel.IsServed (c : Channel) : Prop := c.isDropped ∨ c.take.1.toOption = none

instance (c : Channel) : Decidable c.IsServed := inferInstanceAs (Decidable (_ ∨ _))

/-- A handler waits for a slot of a buffer only if a row can be taken from it. -/
theorem Channel.not_isServed {c : Channel} (hslots : c.HasSlots) (hsound : c.IsSound)
    (hlive : c.isDone = false) (h : c.Waits) : ¬ c.IsServed := by
  obtain ⟨capacity, hpos, haccounts⟩ := hslots
  obtain ⟨hwaits, hkept⟩ := h
  have hfull := haccounts.slots
  rw [haccounts.scarce hwaits, granted, if_neg (by simp [hwaits])] at hfull
  rintro (hdropped | hnone)
  · rw [hkept] at hdropped
    cases hdropped
  · rcases c.take_eq with ⟨reason, hfailure, -⟩ | ⟨-, hrows, -⟩ | ⟨row, rows, -, -, htake⟩
    · rw [hsound hlive] at hfailure
      cases hfailure
    · rw [hrows, List.length_nil] at hfull
      omega
    · rw [htake] at hnone
      cases hnone

/-- A row gets through if a slot was given to it or the response was dropped. -/
theorem Channel.store_of_admits {c : Channel} (h : c.Admits) (row : Row) :
    (c.store row).2 = true := by
  unfold store
  rcases h with hslot | hdropped
  · rw [hslot]
    cases c.isDropped <;> rfl
  · rw [hdropped]
    cases c.slot <;> rfl

/-- A row that waits stays where it is, however often it is tried to store it. -/
theorem Channel.store_of_waits {c : Channel} (h : c.Waits) (row : Row) : (c.store row).1 = c := by
  unfold store
  rw [h.1, h.2]

/-- What arrives after the end is not read. -/
theorem Roster.readings_append_of_hasEnded {items : List Inbound} (h : Inbound.hasEnded items)
    (more : List Inbound) : readings (items ++ more) = readings items := by
  induction items with
  | nil => cases h
  | cons item items ih =>
    cases item with
    | bytes chunk => exact congrArg (3 * chunk.length + 1 + ·) (ih h)
    | _ => rfl

namespace Link

open Docket (Item)

variable {s : Link} {action : Action} {arrived : List Inbound} {items : List Item}
  {log : List Event} {key : Nat} {row : Row}

/-! ### One action -/

/-- The work that is left to the reader. -/
def labour (s : Link) : Nat := s.roster.labour s.feed

/-- The reader is about to store a row in a channel of which something holds. -/
def StoresIn (s : Link) (key : Nat) (row : Row) (P : Channel → Prop) : Prop :=
  s.reader.stage = .storing key row ∧ ∃ c, s.channels[key]? = some c ∧ P c

/-- Beside the reader its work does not grow once the end has arrived. -/
theorem labour_act_of_ne (h : s.IsTold arrived items log) (hended : Inbound.hasEnded arrived)
    (hopen : s.isClosed = false) (hspared : s.isSpared action) (hother : action ≠ .turn .reader) :
    (s.act action).labour = s.labour := by
  have hspares := s.spares_act h.reads.held hspared hother
  have hfeed : (s.act action).feed = { s.feed with inbound := s.inbound ++ action.arrivals } :=
    hspares.feed
  have hreading : (s.act action).roster.reading = s.roster.reading := hspares.reading
  have hreadings : (if s.feed.isAtEnd then 0
        else Roster.readings (s.inbound ++ action.arrivals)) =
      if s.feed.isAtEnd then 0 else Roster.readings s.inbound := by
    cases h.reads.follows hopen with
    | ahead hahead hstream hsame hdraws =>
      rw [Roster.readings_append_of_hasEnded (hsame ▸ hended)]
    | atEnd hend => rw [hend, if_pos rfl, if_pos rfl]
  unfold labour Roster.labour
  rw [hfeed, hreading]
  dsimp only
  rw [hreadings]
  rfl

/-- A turn of the reader leaves it less work, or the reader waits for a slot. -/
theorem turn_cases (h : s.IsTold arrived items log) (hended : Inbound.hasEnded arrived)
    (hopen : (s.act (.turn .reader)).isClosed = false) :
    (s.act (.turn .reader)).labour < s.labour ∨
      ∃ key row c, s.reader.stage = .storing key row ∧ s.channels[key]? = some c ∧
        (c.store row).2 = false ∧ (s.act (.turn .reader)).reader.stage = .storing key row ∧
          (s.act (.turn .reader)).channels[key]? = some (c.store row).1 ∧
            (s.act (.turn .reader)).labour = s.labour := by
  have hbefore : s.isClosed = false := isOpen_of_act hopen
  obtain ⟨⟨hstep, -, -⟩, -⟩ := h.reads.step h.tended
  dsimp only at hstep
  change (s.turnOf .reader).isClosed = false at hopen
  change (s.turnOf .reader).labour < s.labour ∨ ∃ key row c, _ ∧ _ ∧ _ ∧
    (s.turnOf .reader).reader.stage = _ ∧ (s.turnOf .reader).channels[key]? = _ ∧
      (s.turnOf .reader).labour = s.labour
  cases hreads : s.readsOn with
  | true =>
    rw [hreads] at hstep
    exact .inl hstep.labour_lt
  | false =>
    right
    rw [hreads] at hstep
    generalize hroster : (s.turnOf .reader).roster = r' at hstep
    generalize hfeed : (s.turnOf .reader).feed = f' at hstep
    have hclosed : r'.isClosed = false := hroster ▸ hopen
    cases hstep with
    | wait hreading hdecode hahead hinbound =>
      cases h.reads.follows hbefore with
      | ahead _ hstream hsame hdraws =>
        rw [hsame, hinbound] at hended
        cases hended
      | atEnd hend =>
        rw [hahead] at hend
        cases hend
    | close hreading hdecode hover =>
      rw [show ({ s.roster.shut with reading := ReaderStage.stopped } : Roster).isClosed =
        s.roster.shut.isClosed from rfl, s.roster.shut_isClosed] at hclosed
      cases hclosed
    | @stall key row c hreading hc hwaits =>
      have hstage : (s.turnOf .reader).reader.stage = .storing key row :=
        (congrArg Roster.reading hroster).trans hreading
      refine ⟨key, row, c, hreading, hc, hwaits, hstage, ?_, ?_⟩
      · refine (congrArg (fun r : Roster => r.channels[key]?) hroster).trans ?_
        rw [Roster.change_eq hc]
        exact List.getElem?_set_self (List.getElem?_eq_some_iff.mp hc).1
      · unfold labour
        rw [hroster, hfeed]
        rfl
    | rest hreading =>
      have hstopped := h.reads.stopped
      rw [show s.reader.stage = .stopped from hreading, hbefore] at hstopped
      cases hstopped

/-- The work of the reader never grows once the end has arrived. -/
theorem labour_act_le (h : s.IsTold arrived items log) (hended : Inbound.hasEnded arrived)
    (hopen : s.isClosed = false) (hopen' : (s.act action).isClosed = false)
    (hspared : s.isSpared action) : (s.act action).labour ≤ s.labour := by
  by_cases hreader : action = .turn .reader
  · subst hreader
    rcases turn_cases h hended hopen' with hless | ⟨key, row, c, -, -, -, -, -, hsame⟩
    · exact hless.le
    · exact hsame.le
  · exact (labour_act_of_ne h hended hopen hspared hreader).le

/-- A row that waits goes on waiting, unless a slot is given to it or the response is dropped. If a
row is taken, it does not wait any longer. -/
theorem StoresIn.act_of_waits (h : s.IsTold arrived items log) (hended : Inbound.hasEnded arrived)
    (hspared : s.isSpared action) (hopen : (s.act action).isClosed = false)
    (hlags : s.labour ≤ (s.act action).labour) (hstores : s.StoresIn key row Channel.Waits) :
    (s.act action).StoresIn key row Channel.Admits ∨
      (s.act action).StoresIn key row Channel.Waits ∧
        Event.gainedFrom key (s.eventsAt action) = [] := by
  obtain ⟨hstage, c, hc, hwaits⟩ := hstores
  by_cases hreader : action = .turn .reader
  · subst hreader
    refine .inr ⟨?_, s.gainedFrom_reader key⟩
    obtain ⟨other, row', c', hstage', hc', -, hstays, hafter, -⟩ :=
      (turn_cases h hended hopen).resolve_left (Nat.not_lt.mpr hlags)
    obtain ⟨rfl, rfl⟩ := ReaderStage.storing.inj (hstage.symm.trans hstage')
    obtain rfl := Option.some.inj (hc.symm.trans hc')
    rw [Channel.store_of_waits hwaits] at hafter
    exact ⟨hstays, c, hafter, hwaits⟩
  · have hspares := s.spares_act h.reads.held hspared hreader
    have hstays : (s.act action).reader.stage = .storing key row := hspares.reading.trans hstage
    obtain ⟨c', hc', hheeds⟩ := hspares.heeds key c hc
    rcases hheeds.waits hwaits with ⟨-, hadmits⟩ | ⟨hwaits', hrows⟩
    · exact .inl ⟨hstays, c', hc', hadmits⟩
    · refine .inr ⟨⟨hstays, c', hc', hwaits'⟩, ?_⟩
      have hunfed : .fed key ∉ s.eventsAt action := fun hfed => hreader (held_of_fed hfed).1
      obtain ⟨after, hafter, hcomes⟩ := (s.act_moves action).brings hunfed hc
      obtain rfl := Option.some.inj (hafter.symm.trans hc')
      have hall := hcomes.rows
      rw [hrows] at hall
      exact List.append_left_eq_self.mp hall

/-- A row that gets through waits for a turn of the reader. -/
theorem StoresIn.act_of_admits (h : s.IsTold arrived items log) (hended : Inbound.hasEnded arrived)
    (hspared : s.isSpared action) (hopen : (s.act action).isClosed = false)
    (hlags : s.labour ≤ (s.act action).labour) (hstores : s.StoresIn key row Channel.Admits) :
    action ≠ .turn .reader ∧ (s.act action).StoresIn key row Channel.Admits := by
  obtain ⟨hstage, c, hc, hadmits⟩ := hstores
  have hother : action ≠ .turn .reader := by
    rintro rfl
    obtain ⟨other, row', c', hstage', hc', hrefused, -⟩ :=
      (turn_cases h hended hopen).resolve_left (Nat.not_lt.mpr hlags)
    obtain ⟨rfl, rfl⟩ := ReaderStage.storing.inj (hstage.symm.trans hstage')
    obtain rfl := Option.some.inj (hc.symm.trans hc')
    rw [Channel.store_of_admits hadmits] at hrefused
    cases hrefused
  have hspares := s.spares_act h.reads.held hspared hother
  obtain ⟨c', hc', hheeds⟩ := hspares.heeds key c hc
  exact ⟨hother, hspares.reading.trans hstage, c', hc', hheeds.admits hadmits⟩

/-- Once the end has arrived, a reader that was not woken is about to store a row that waits. -/
theorem storesIn_of_idles (h : s.IsTold arrived items log) (hended : Inbound.hasEnded arrived)
    (hopen : s.isClosed = false) (hidles : s.roster.Idles s.feed) :
    ∃ key row, s.StoresIn key row Channel.Waits := by
  have hstopped := h.reads.stopped
  unfold Roster.Idles at hidles
  cases hstage : s.roster.reading with
  | reading =>
    rw [hstage] at hidles
    cases h.reads.follows hopen with
    | ahead hahead hstream hsame hdraws =>
      rw [hsame, hidles.1] at hended
      cases hended
    | atEnd hend =>
      rw [hidles.2] at hend
      cases hend
  | decoding handler payload =>
    rw [hstage] at hidles
    exact hidles.elim
  | storing key row =>
    rw [hstage] at hidles
    exact ⟨key, row, hstage, hidles⟩
  | stopped =>
    rw [show s.reader.stage = .stopped from hstage, hopen] at hstopped
    cases hstopped

/-- A row that waits can be seen by the caller, who does not take it. -/
theorem StoresIn.not_isServed (h : s.IsTold arrived items log)
    (hstores : s.StoresIn key row Channel.Waits) :
    ∃ c, s.channels[key]? = some c ∧ ¬ c.IsServed := by
  obtain ⟨hstage, c, hc, hwaits⟩ := hstores
  have hheld : s.roster.reading.held? = some (.statement key) :=
    congrArg ReaderStage.held? hstage
  obtain ⟨c', hc', hlive⟩ := h.tended.exists_held hheld
  obtain rfl := Option.some.inj (hc'.symm.trans hc)
  have hmem := List.mem_of_getElem? hc
  exact ⟨c', hc, Channel.not_isServed (h.reads.slots _ hmem) (h.tended.sound _ hmem) hlive hwaits⟩

/-! ### Courses -/

/-- The first actions of a course. -/
def firstOf (course : Nat → Action) (n : Nat) : List Action := (List.range n).map course

/-- One more action is behind the first ones. -/
theorem firstOf_succ (course : Nat → Action) (n : Nat) :
    firstOf course (n + 1) = firstOf course n ++ [course n] := by
  rw [firstOf, List.range_succ, List.map_append]
  rfl

/-- The link after the first actions of a course. -/
def after (config : Config) (course : Nat → Action) (n : Nat) : Link :=
  runOf config (firstOf course n)

/-- A course on which nobody closes the link or gives it up and no write fails, on which a reader
that was woken gets a turn, and on which the callers keep taking rows or drop their responses. -/
structure IsFair (config : Config) (course : Nat → Action) : Prop where
  /-- The reader is left alone. -/
  spared : ∀ n, (fresh config).isSparedIn (firstOf course n)
  /-- A reader that was woken gets a turn. -/
  turns : ∀ n, .reader ∈ (after config course n).ready →
    ∃ m, n ≤ m ∧ course m = .turn .reader
  /-- Sooner or later every response is served or some rows of it are taken. -/
  takes : ∀ n key, ∃ m, n ≤ m ∧
    ((∀ c, (after config course m).channels[key]? = some c → c.IsServed) ∨
      Event.gainedFrom key ((after config course m).eventsAt (course m)) ≠ [])

variable {config : Config} {course : Nat → Action} {n : Nat}

/-- One more action is done after the first ones. -/
theorem after_succ (config : Config) (course : Nat → Action) (n : Nat) :
    after config course (n + 1) = (after config course n).act (course n) := by
  rw [after, firstOf_succ, runOf_concat]
  rfl

/-- What arrives in the first actions is the beginning of what arrives in more of them. -/
theorem arrivalsIn_firstOf (course : Nat → Action) (n m : Nat) :
    arrivalsIn (firstOf course n) <+: arrivalsIn (firstOf course (n + m)) := by
  induction m with
  | zero => exact List.prefix_rfl
  | succ m ih =>
    refine ih.trans ?_
    rw [← Nat.add_assoc, firstOf_succ, arrivalsIn, arrivalsIn, List.flatMap_append]
    exact List.prefix_append _ _

/-- A run that spares the reader is told by its docket. -/
theorem isTold_runOf {actions : List Action} (hspared : (fresh config).isSparedIn actions) :
    (runOf config actions).IsTold (arrivalsIn actions) ((fresh config).itemsIn actions)
      (journalOf config actions) :=
  (isTold_fresh config).run hspared

/-- The beginnings of a fair course are told by their dockets. -/
theorem IsFair.isTold (h : IsFair config course) (n : Nat) :
    (after config course n).IsTold (arrivalsIn (firstOf course n))
      ((fresh config).itemsIn (firstOf course n)) (journalOf config (firstOf course n)) :=
  isTold_runOf (h.spared n)

/-- Every action of a fair course spares the reader. -/
theorem IsFair.isSpared (h : IsFair config course) (n : Nat) :
    (after config course n).isSpared (course n) := by
  have hspared := h.spared (n + 1)
  rw [firstOf_succ, isSparedIn_append, Bool.and_eq_true] at hspared
  exact (Bool.and_eq_true_iff.mp hspared.2).1

/-- From some moment on the link stays open although the end has arrived, and the reader gets no
further. -/
structure Lags (config : Config) (course : Nat → Action) (n : Nat) : Prop where
  /-- The end has arrived. -/
  ended : Inbound.hasEnded (arrivalsIn (firstOf course n))
  /-- The link stays open. -/
  opens : ∀ m, n ≤ m → (after config course m).isClosed = false
  /-- The reader has never less to do. -/
  labour : ∀ m, n ≤ m → (after config course n).labour ≤ (after config course m).labour

/-- A stream that has ended has ended for good. -/
theorem hasEnded_firstOf (hended : Inbound.hasEnded (arrivalsIn (firstOf course n))) {m : Nat}
    (hm : n ≤ m) : Inbound.hasEnded (arrivalsIn (firstOf course m)) := by
  obtain ⟨k, rfl⟩ := Nat.exists_eq_add_of_le hm
  obtain ⟨more, hmore⟩ := arrivalsIn_firstOf course n k
  rw [← hmore, Inbound.hasEnded_append, hended, Bool.true_or]

/-! ### Courses that come to rest -/

/-- The course that takes these actions and then nothing more. -/
def thenRest (actions : List Action) (n : Nat) : Action := actions[n]?.getD (.allocate 0)

/-- Behind the given actions nothing happens. -/
theorem thenRest_of_le {actions : List Action} (hn : actions.length ≤ n) :
    thenRest actions n = .allocate 0 := by
  rw [thenRest, List.getElem?_eq_none hn]
  rfl

/-- The given actions come first. -/
theorem firstOf_thenRest (actions : List Action) :
    firstOf (thenRest actions) actions.length = actions := by
  refine List.ext_getElem (by simp [firstOf]) fun i hi hi' => ?_
  simp [firstOf, thenRest, hi']

/-- Behind the given actions the link stays as they have left it. -/
theorem after_thenRest {actions : List Action} (hn : actions.length ≤ n) :
    after config (thenRest actions) n = runOf config actions := by
  induction n, hn using Nat.le_induction with
  | base => rw [after, firstOf_thenRest]
  | succ n hn ih =>
    rw [after_succ, thenRest_of_le hn, ih]
    rfl

/-- A course that rests in the end spares the reader if the actions do. -/
theorem isSpared_thenRest {actions : List Action} (hspared : (fresh config).isSparedIn actions)
    (n : Nat) : (after config (thenRest actions) n).isSpared (thenRest actions n) := by
  by_cases hn : n < actions.length
  · have hfirst : firstOf (thenRest actions) n = actions.take n := by
      refine List.ext_getElem (by simp [firstOf, hn.le]) fun i hi hi' => ?_
      have hlong : i < actions.length := hn.trans' (by simpa [firstOf] using hi)
      simp [firstOf, thenRest, hlong]
    have hnext : thenRest actions n = actions[n] := by simp [thenRest, hn]
    rw [← List.take_append_drop n actions, List.drop_eq_getElem_cons hn, isSparedIn_append,
      Bool.and_eq_true, isSparedIn, Bool.and_eq_true] at hspared
    rw [after, hfirst, hnext]
    exact hspared.2.1
  · rw [thenRest_of_le (Nat.not_lt.mp hn)]
    rfl

/-- A run after which the reader has nothing to do and no caller has a row to take belongs to a fair
course. -/
theorem isFair_thenRest {actions : List Action} (hspared : (fresh config).isSparedIn actions)
    (hready : .reader ∉ (runOf config actions).ready)
    (hserved : ∀ c ∈ (runOf config actions).channels, c.IsServed) :
    IsFair config (thenRest actions) := by
  have hall (n : Nat) : (fresh config).isSparedIn (firstOf (thenRest actions) n) := by
    induction n with
    | zero => rfl
    | succ n ih =>
      rw [firstOf_succ, isSparedIn_append, ih, Bool.true_and, isSparedIn, Bool.and_eq_true]
      exact ⟨isSpared_thenRest hspared n, rfl⟩
  refine ⟨hall, fun n hwoken => ?_, fun n key => ⟨max n actions.length, le_max_left _ _, .inl ?_⟩⟩
  · by_contra hnever
    have hstays {m : Nat} (hm : n ≤ m) : .reader ∈ (after config (thenRest actions) m).ready := by
      induction m, hm using Nat.le_induction with
      | base => exact hwoken
      | succ m hm ih =>
        rw [after_succ]
        exact (spares_act _ (isTold_runOf (hall m)).reads.held (isSpared_thenRest hspared m)
          fun hturn => hnever ⟨m, hm, hturn⟩).woken ih
    have hlast := hstays (le_max_left n actions.length)
    rw [after_thenRest (le_max_right _ _)] at hlast
    exact hready hlast
  · intro c hc
    rw [after_thenRest (le_max_right _ _)] at hc
    exact hserved c (List.mem_of_getElem? hc)

namespace Lags

variable (h : IsFair config course) (hlags : Lags config course n)

include h hlags

/-- The labour of a reader that has all bytes never grows. -/
theorem labour_le {m : Nat} (hm : n ≤ m) :
    (after config course m).labour ≤ (after config course n).labour := by
  induction m, hm using Nat.le_induction with
  | base => exact Nat.le_refl _
  | succ m hm ih =>
    refine Nat.le_trans ?_ ih
    have hopen' := hlags.opens (m + 1) (Nat.le_succ_of_le hm)
    rw [after_succ] at hopen' ⊢
    exact labour_act_le (h.isTold m) (hasEnded_firstOf hlags.ended hm)
      (hlags.opens m hm) hopen' (h.isSpared m)

/-- No action leaves the reader less work. -/
theorem step {m : Nat} (hm : n ≤ m) :
    ((after config course m).act (course m)).isClosed = false ∧
      (after config course m).labour ≤ ((after config course m).act (course m)).labour := by
  have hm' : n ≤ m + 1 := Nat.le_succ_of_le hm
  rw [← after_succ]
  exact ⟨hlags.opens _ hm', (hlags.labour_le h hm).trans (hlags.labour _ hm')⟩

/-- Sooner or later the reader waits for a slot. -/
theorem exists_waits :
    ∃ m key row, n ≤ m ∧ (after config course m).StoresIn key row Channel.Waits := by
  have hidle {m : Nat} (hm : n ≤ m)
      (hidles : (after config course m).roster.Idles (after config course m).feed) :
      ∃ m key row, n ≤ m ∧ (after config course m).StoresIn key row Channel.Waits := by
    obtain ⟨key, row, hstores⟩ := storesIn_of_idles (h.isTold m)
      (hasEnded_firstOf hlags.ended hm) (hlags.opens m hm) hidles
    exact ⟨m, key, row, hm, hstores⟩
  rcases (h.isTold n).reads.alert with hready | hidles
  · obtain ⟨m, hm, hturn⟩ := h.turns n hready
    have hstep := hlags.step h hm
    rw [hturn] at hstep
    obtain ⟨key, row, c, -, -, hrefused, hstage, hc, -⟩ :=
      (turn_cases (h.isTold m) (hasEnded_firstOf hlags.ended hm)
        hstep.1).resolve_left (Nat.not_lt.mpr hstep.2)
    refine ⟨m + 1, key, row, Nat.le_succ_of_le hm, ?_⟩
    rw [after_succ, hturn]
    exact ⟨hstage, _, hc, c.store_waits hrefused⟩
  · exact hidle (Nat.le_refl n) hidles

/-- Sooner or later a row that waits gets through. -/
theorem exists_admits {m : Nat} (hm : n ≤ m)
    (hstores : (after config course m).StoresIn key row Channel.Waits) :
    ∃ k, n ≤ k ∧ (after config course k).StoresIn key row Channel.Admits := by
  by_contra hnever
  have hstep {k : Nat} (hk : m ≤ k)
      (hwaits : (after config course k).StoresIn key row Channel.Waits) :
      (after config course (k + 1)).StoresIn key row Channel.Waits ∧
        Event.gainedFrom key ((after config course k).eventsAt (course k)) = [] := by
    have hk' := hm.trans hk
    rw [after_succ]
    refine (hwaits.act_of_waits (h.isTold k) (hasEnded_firstOf hlags.ended hk')
      (h.isSpared k) (hlags.step h hk').1 (hlags.step h hk').2).resolve_left fun hadmits => ?_
    rw [← after_succ] at hadmits
    exact hnever ⟨k + 1, Nat.le_succ_of_le hk', hadmits⟩
  have hwaits {k : Nat} (hk : m ≤ k) : (after config course k).StoresIn key row Channel.Waits := by
    induction k, hk using Nat.le_induction with
    | base => exact hstores
    | succ k hk ih => exact (hstep hk ih).1
  obtain ⟨k, hk, hserved | htaken⟩ := h.takes m key
  · obtain ⟨c, hc, hunserved⟩ := (hwaits hk).not_isServed (h.isTold k)
    exact hunserved (hserved c hc)
  · exact htaken (hstep hk (hwaits hk)).2

/-- The reader of a fair course does not lag behind. -/
theorem elim : False := by
  obtain ⟨m, key, row, hm, hstores⟩ := hlags.exists_waits h
  obtain ⟨k, hk, hadmits⟩ := hlags.exists_admits h hm hstores
  have hstep {l : Nat} (hl : k ≤ l)
      (hadmits : (after config course l).StoresIn key row Channel.Admits) :
      course l ≠ .turn .reader ∧ (after config course (l + 1)).StoresIn key row Channel.Admits := by
    have hl' := hk.trans hl
    rw [after_succ]
    exact hadmits.act_of_admits (h.isTold l) (hasEnded_firstOf hlags.ended hl')
      (h.isSpared l) (hlags.step h hl').1 (hlags.step h hl').2
  have hstays {l : Nat} (hl : k ≤ l) : (after config course l).StoresIn key row Channel.Admits := by
    induction l, hl using Nat.le_induction with
    | base => exact hadmits
    | succ l hl ih => exact (hstep hl ih).2
  rcases (h.isTold k).reads.alert with hready | hidles
  · obtain ⟨l, hl, hturn⟩ := h.turns k hready
    exact (hstep hl (hstays hl)).1 hturn
  · obtain ⟨hstage, c, hc, hadmits⟩ := hadmits
    have hreading : (after config course k).roster.reading = .storing key row := hstage
    rw [Roster.Idles, hreading] at hidles
    obtain ⟨c', hc', hwaits⟩ := hidles
    obtain rfl := Option.some.inj (hc'.symm.trans hc)
    exact hwaits.not_admits hadmits

end Lags

/-- On a fair course on which the end of the stream arrives the link is closed. -/
theorem IsFair.closes (h : IsFair config course)
    (hended : Inbound.hasEnded (arrivalsIn (firstOf course n))) :
    ∃ m, n ≤ m ∧ (after config course m).isClosed := by
  by_contra hnever
  have hopens (m : Nat) (hm : n ≤ m) : (after config course m).isClosed = false := by
    by_contra hclosed
    exact hnever ⟨m, hm, by simpa using hclosed⟩
  -- The induction is on the work that is left: if it never became less, the reader would lag.
  have hlags (work : Nat) : ∀ m, n ≤ m → (after config course m).labour ≠ work := by
    induction work using Nat.strong_induction_on with
    | _ work ih =>
      rintro m hm rfl
      refine Lags.elim h (n := m) ⟨hasEnded_firstOf hended hm, fun k hk => hopens k (hm.trans hk),
        fun k hk => ?_⟩
      by_contra hless
      exact ih _ (Nat.not_le.mp hless) k (hm.trans hk) rfl
  exact hlags _ n (Nat.le_refl n) rfl

end Link

end BeeProtocol
