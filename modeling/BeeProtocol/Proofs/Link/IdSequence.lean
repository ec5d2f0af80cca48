import BeeProtocol.Proofs.Link.AllocatedIds

/-!
# The sequence of statement ids

All callers of a link allocate their ids from one counter, each id in one step, for themselves or as
they execute a script. In whatever order they do, the ids count up from 1 and start again at 0 when
they reach their limit, so that none comes again before all others were allocated.
-/

namespace BeeProtocol

namespace Link

/-! ### Ids in a row -/

/-- The ids are those that are allocated after so many others. -/
def FollowOn (before : Nat) (ids : List UInt16) : Prop :=
  ∀ n id, ids[n]? = some id → id.toNat = (before + n + 1) % idLimit

section FollowOn

variable {before : Nat} {ids more : List UInt16}

/-- No ids follow on whatever comes before. -/
theorem followOn_nil (before : Nat) : FollowOn before [] := by
  intro n id hid
  cases hid

/-- Ids that follow on others follow on what comes before these. -/
theorem FollowOn.append (h : FollowOn before ids) (hmore : FollowOn (before + ids.length) more) :
    FollowOn before (ids ++ more) := by
  intro n id hid
  rw [List.getElem?_append] at hid
  split at hid
  · exact h n id hid
  · rename_i hn
    rw [hmore _ id hid]
    congr 1
    omega

/-- Ids that are among those in a row are in a row themselves. -/
theorem FollowOn.of_part (h : FollowOn before ids) (hpart : more <:+: ids) :
    ∃ skipped, FollowOn (before + skipped) more := by
  obtain ⟨front, back, rfl⟩ := hpart
  refine ⟨front.length, fun n id hid => ?_⟩
  have hn : n < more.length := (List.getElem?_eq_some_iff.mp hid).1
  have hwhole : (front ++ more ++ back)[front.length + n]? = some id := by
    rw [List.append_assoc, List.getElem?_append_right (Nat.le_add_right ..),
      Nat.add_sub_cancel_left, List.getElem?_append_left hn, hid]
  rw [h _ id hwhole, Nat.add_assoc before front.length]

/-- No id comes again before all others were allocated. -/
theorem FollowOn.nodup (h : FollowOn before ids) (hshort : ids.length ≤ idLimit) : ids.Nodup := by
  rw [List.nodup_iff_getElem?_ne_getElem?]
  intro i j hij hj hsame
  have hid : ids[j]? = some ids[j] := List.getElem?_eq_getElem hj
  have hfirst := h i _ (hsame.trans hid)
  have hsecond := h j _ hid
  have hrepeats : (before + i + 1) % idLimit = (before + j + 1) % idLimit :=
    hfirst.symm.trans hsecond
  have hserial := serial_eq_of_near hrepeats (by omega) le_rfl (by omega) (by omega)
  omega

end FollowOn

/-! ### What is allocated -/

/-- The ids that are allocated if so many are allocated one after another. -/
def freshIds (s : Link) : Nat → List UInt16
  | 0 => []
  | count + 1 => s.nextId.1 :: s.nextId.2.freshIds count

/-- The ids that are allocated in an action. -/
def allocatedAt (s : Link) : Action → List UInt16
  | .allocate count => s.freshIds count
  | .turn (.task t) =>
    match s.tasks[t]? with
    | some ⟨_, .called (.execute _), false⟩ => [s.nextId.1]
    | _ => []
  | _ => []

/-- The ids that are allocated in a row of actions. -/
def allocatedIn (s : Link) : List Action → List UInt16
  | [] => []
  | action :: actions => s.allocatedAt action ++ (s.act action).allocatedIn actions

/-- The ids that are allocated in a run. -/
def allocatedOf (config : Config) (actions : List Action) : List UInt16 :=
  (fresh config).allocatedIn actions

variable {s : Link} {before : Nat}

/-- Every action moves the latest id on by as many ids as it allocates. -/
theorem lastId_act (s : Link) (action : Action) :
    (s.act action).lastId = followingId^[(s.entryAt action).allocated] s.lastId := by
  obtain ⟨phase, -, hledger⟩ := s.aged_act action
  exact congrArg Ledger.lastId hledger

/-- Every action opens statements behind the others, under the ids that it says. -/
theorem ids_act (s : Link) (action : Action) :
    (s.act action).channels.map (·.id) = s.channels.map (·.id) ++ (s.entryAt action).opened := by
  obtain ⟨phase, -, hledger⟩ := s.aged_act action
  exact congrArg Ledger.ids hledger

/-- A call allocates an id only to execute a script. -/
theorem allocated_callEntry {t : Nat} {label : Option Nat} {stage : Stage}
    (h : ∀ script, stage ≠ .called (.execute script)) :
    (s.callEntry t label stage).allocated = 0 := by
  unfold callEntry
  split
  · rfl
  · exact absurd rfl (h _)
  · split <;> rfl
  · split <;> rfl
  · rfl

/-- The counter goes on by as many ids as are allocated. -/
theorem allocatedAt_eq (s : Link) (action : Action) :
    s.allocatedAt action = s.freshIds (s.entryAt action).allocated := by
  cases action with
  | turn actor =>
    cases actor with
    | reader => rfl
    | task t =>
      dsimp only [allocatedAt, entryAt]
      cases s.tasks[t]? with
      | none => rfl
      | some task =>
        obtain ⟨label, stage, isAborted⟩ := task
        split
        · rename_i hexecutes
          cases hexecutes
          rfl
        · rename_i hother
          cases isAborted with
          | true => rfl
          | false =>
            have hnone : (s.callEntry t label stage).allocated = 0 :=
              allocated_callEntry fun script hstage => hother label script (by rw [hstage])
            exact (congrArg s.freshIds hnone).symm
  | _ => rfl

/-- The next id counts on modulo the number of ids. -/
theorem toNat_nextId (h : s.lastId = before % idLimit) :
    s.nextId.1.toNat = (before + 1) % idLimit := by
  have hlt : (before + 1) % idLimit < UInt16.size := (Nat.mod_lt _ (by decide)).trans (by decide)
  change (UInt16.ofNat (followingId s.lastId)).toNat = _
  rw [h, followingId_mod, UInt16.toNat_ofNat', Nat.mod_eq_of_lt hlt]

/-- Allocating an id counts on modulo the number of ids. -/
theorem lastId_nextId (h : s.lastId = before % idLimit) :
    s.nextId.2.lastId = (before + 1) % idLimit := by
  change followingId s.lastId = _
  rw [h, followingId_mod]

/-- As many ids are allocated as are asked for. -/
@[simp] theorem length_freshIds (s : Link) (count : Nat) : (s.freshIds count).length = count := by
  induction count generalizing s with
  | zero => rfl
  | succ count ih => rw [freshIds, List.length_cons, ih]

/-- Ids that are allocated follow on those before. -/
theorem followOn_freshIds (h : s.lastId = before % idLimit) (count : Nat) :
    FollowOn before (s.freshIds count) := by
  induction count generalizing s before with
  | zero => exact followOn_nil before
  | succ count ih =>
    have hfirst : FollowOn before [s.nextId.1] := by
      intro n id hid
      obtain ⟨hn, rfl⟩ := List.getElem?_eq_some_iff.mp hid
      obtain rfl : n = 0 := by simpa using hn
      exact toNat_nextId h
    exact hfirst.append (ih (lastId_nextId h))

/-- The limit is left out. -/
example : ({ fresh (.defaults "" 0) with lastId := 65533 } : Link).freshIds 3 = [65534, 0, 1] := by
  decide

/-- The last one of several ids is the one that their caller is told. -/
theorem toNat_nextIds (h : s.lastId = before % idLimit) (count : Nat) :
    (s.nextIds (count + 1)).1.toNat = (before + count + 1) % idLimit := by
  induction count generalizing s before with
  | zero => exact toNat_nextId h
  | succ count ih =>
    change (s.nextId.2.nextIds (count + 1)).1.toNat = _
    rw [ih (lastId_nextId h), Nat.add_right_comm before 1]
    rfl

/-- What is allocated in an action follows on what was allocated before it. -/
theorem followOn_act (h : s.lastId = before % idLimit) (action : Action) :
    FollowOn before (s.allocatedAt action) ∧
      (s.act action).lastId = (before + (s.allocatedAt action).length) % idLimit := by
  rw [allocatedAt_eq, length_freshIds, lastId_act, h, iterate_followingId]
  exact ⟨followOn_freshIds h _, rfl⟩

/-- The ids of a run follow on those before, and the latest one is the last of them. -/
theorem followOn_run (h : s.lastId = before % idLimit) (actions : List Action) :
    FollowOn before (s.allocatedIn actions) ∧
      (actions.foldl act s).lastId = (before + (s.allocatedIn actions).length) % idLimit := by
  induction actions generalizing s before with
  | nil => exact ⟨followOn_nil before, h⟩
  | cons action actions ih =>
    obtain ⟨hfirst, hlast⟩ := followOn_act h action
    obtain ⟨hrest, hend⟩ := ih hlast
    refine ⟨hfirst.append hrest, ?_⟩
    rw [List.foldl_cons, hend, allocatedIn, List.length_append, Nat.add_assoc]

/-! ### The whole sequence -/

/-- How the ids of a link are counted, these being all that were allocated so far. -/
structure CountsIds (s : Link) (ids : List UInt16) : Prop where
  /-- The n-th id is n, modulo the limit. -/
  nth : ∀ n, 1 ≤ n → n ≤ ids.length → ∃ id, ids[n - 1]? = some id ∧ id.toNat = n % idLimit
  /-- Whoever allocates next, be it one id or several in a row, is told the one that it comes to. -/
  next : ∀ count, (s.nextIds (count + 1)).1.toNat = (ids.length + count + 1) % idLimit
  /-- A call that executes a script allocates one id, which its statement has if it can be written
  in a frame, and which is used up whatever becomes of it. -/
  executes : ∀ t label script, s.tasks[t]? = some ⟨label, .called (.execute script), false⟩ →
    s.allocatedAt (.turn (.task t)) = [s.nextId.1] ∧
      (s.act (.turn (.task t))).lastId = followingId s.lastId ∧
        (s.act (.turn (.task t))).channels.map (·.id) = s.channels.map (·.id) ++
          submitted s.nextId.1 script s.config.statementTimeoutSeconds
  /-- The counter has the last of the ids, and going on from it stays within 32 bits. -/
  counter : s.lastId = ids.length % idLimit
  /-- To count on does not overflow 32 bits. -/
  fits : (UInt32.ofNat s.lastId + 1).toNat = s.lastId + 1
  /-- An id is all of what the counter comes to. -/
  whole : s.nextId.1.toNat = followingId s.lastId
  /-- The limit itself is never allocated. -/
  below : ∀ id ∈ ids, id.toNat ≠ idLimit
  /-- Of as many ids in a row as there are, no two are the same. -/
  distinct : ∀ part, part <:+: ids → part.length ≤ idLimit → part.Nodup

/-- Ids that follow on nothing are counted from one. -/
theorem countsIds_of_followOn {ids : List UInt16} (h : FollowOn 0 ids)
    (hlast : s.lastId = ids.length % idLimit) : s.CountsIds ids where
  nth n hpos hle := by
    have hid : ids[n - 1]? = some ids[n - 1] := List.getElem?_eq_getElem (by omega)
    refine ⟨_, hid, ?_⟩
    rw [h _ _ hid, Nat.zero_add, Nat.sub_add_cancel hpos]
  next := toNat_nextIds hlast
  executes t label script htask := by
    have hentry : s.entryAt (.turn (.task t)) =
        s.callEntry t label (.called (.execute script)) := by
      dsimp only [entryAt]
      rw [htask]
      rfl
    refine ⟨?_, ?_, ?_⟩
    · rw [allocatedAt_eq, hentry]
      rfl
    · rw [lastId_act, hentry]
      rfl
    · rw [ids_act, hentry]
      rfl
  counter := hlast
  fits := by
    have hlt : s.lastId < idLimit := hlast ▸ Nat.mod_lt _ (by decide)
    have hself : (UInt32.ofNat s.lastId).toNat = s.lastId :=
      UInt32.toNat_ofNat_of_lt' (hlt.trans (by decide))
    have hroom : s.lastId + 1 < UInt32.size := (Nat.succ_lt_succ hlt).trans (by decide)
    rw [UInt32.toNat_add, hself]
    exact Nat.mod_eq_of_lt hroom
  whole := by rw [toNat_nextId hlast, hlast, followingId_mod]
  below id hmem := by
    obtain ⟨n, hid⟩ := List.mem_iff_getElem?.mp hmem
    rw [h n id hid]
    exact (Nat.mod_lt _ (by decide)).ne
  distinct part hpart hshort := by
    obtain ⟨skipped, hpart⟩ := h.of_part hpart
    exact hpart.nodup hshort

/-- In every run the ids are counted up, whoever allocates them and in whatever order. -/
theorem countsIds_runOf (config : Config) (actions : List Action) :
    (runOf config actions).CountsIds (allocatedOf config actions) := by
  have hfresh : (fresh config).lastId = 0 % idLimit := rfl
  obtain ⟨hids, hlast⟩ := followOn_run hfresh actions
  rw [Nat.zero_add] at hlast
  exact countsIds_of_followOn hids hlast

/-- A script that is executed on a closed link uses up an id as well. -/
example : allocatedOf (.defaults "" 0) (.call 0 .close rfl :: List.replicate 2 (.turn (.task 0)) ++
    .allocate 1 :: execution 1 ++ [.allocate 1]) = [1, 2, 3] := by decide

end Link

end BeeProtocol
