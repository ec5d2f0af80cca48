import Mathlib.Data.List.Basic
import Mathlib.Data.List.Nodup

/-!
# Lists

Facts about lists that the theory of a link uses and the library does not have: an element after
a change of one place, the place of an element, and the order of two elements.
-/

namespace BeeProtocol.Lists

variable {α : Type}

/-! ### Places -/

/-- An element that is added comes behind the others. -/
theorem getElem?_append_singleton (items : List α) (item : α) (i : Nat) :
    (items ++ [item])[i]? = if i = items.length then some item else items[i]? := by
  rw [List.getElem?_append]
  split
  · rw [if_neg (by omega)]
  · split
    · simp [*]
    · rw [List.getElem?_eq_none (by simp; omega), List.getElem?_eq_none (by omega)]

/-- An element of an extended list was there before or is among those that were added. -/
theorem of_getElem?_append {items added : List α} {i : Nat} {item : α}
    (h : (items ++ added)[i]? = some item) : items[i]? = some item ∨ item ∈ added := by
  rw [List.getElem?_append] at h
  split at h
  · exact .inl h
  · exact .inr (List.mem_of_getElem? h)

/-- An element after one of them is replaced is the new one, or stood elsewhere before. -/
theorem of_getElem?_set {items : List α} {i j : Nat} {new item : α}
    (h : (items.set i new)[j]? = some item) :
    j = i ∧ item = new ∨ j ≠ i ∧ items[j]? = some item := by
  rw [List.getElem?_set] at h
  by_cases hj : i = j
  · left
    rw [if_pos hj] at h
    split at h
    · exact ⟨hj.symm, (Option.some.inj h).symm⟩
    · cases h
  · rw [if_neg hj] at h
    exact .inr ⟨Ne.symm hj, h⟩

/-- Where there was an element, the new one stands after it is replaced. -/
theorem getElem?_set_of_some {items : List α} {i : Nat} {item : α} (h : items[i]? = some item)
    (new : α) : (items.set i new)[i]? = some new :=
  List.getElem?_set_self (List.getElem?_eq_some_iff.mp h).1

/-- An element is still there after one is replaced, unless it is that one. -/
theorem mem_set_of_mem {items : List α} {i : Nat} {before item : α}
    (hbefore : items[i]? = some before) (new : α) (hmem : item ∈ items) :
    item ∈ items.set i new ∨ item = before := by
  obtain ⟨j, hj⟩ := List.mem_iff_getElem?.mp hmem
  by_cases hne : i = j
  · subst hne
    rw [hbefore, Option.some.injEq] at hj
    exact .inr hj.symm
  · exact .inl (List.mem_iff_getElem?.mpr ⟨j, by rw [List.getElem?_set_ne hne, hj]⟩)

/-- The position past a list is that of an element appended to it. -/
theorem modify_length (items : List α) (item : α) (change : α → α) :
    (items ++ [item]).modify items.length change = items ++ [change item] := by
  induction items with
  | nil => rfl
  | cons first items ih =>
    rw [List.cons_append, List.length_cons, List.modify_succ_cons, ih]
    rfl

/-- A test of an element after a change of one of them. -/
theorem any_modify (items : List α) (i j : Nat) (change : α → α) (test : α → Bool) :
    ((items.modify i change)[j]?).any test =
      (items[j]?).any fun item => test (if i = j then change item else item) := by
  rw [List.getElem?_modify]
  cases items[j]? with
  | none => rfl
  | some item => by_cases h : i = j <;> simp [h]

/-- A test of an element after one is added. -/
theorem any_append_singleton (items : List α) (item : α) (j : Nat) (test : α → Bool) :
    ((items ++ [item])[j]?).any test =
      ((items[j]?).any test || (j == items.length && test item)) := by
  rcases Nat.lt_trichotomy j items.length with hlt | heq | hgt
  · rw [List.getElem?_append_left hlt, beq_false_of_ne (by omega), Bool.false_and, Bool.or_false]
  · subst heq
    simp
  · rw [List.getElem?_eq_none (by simp; omega), List.getElem?_eq_none (by omega),
      beq_false_of_ne (by omega)]
    rfl

/-! ### Splits -/

/-- The first element that passes a test has none in front of it that passes. -/
theorem find?_split [BEq α] [LawfulBEq α] {items : List α} {test : α → Bool} {found : α}
    (h : items.find? test = some found) :
    ∃ front back, items = front ++ found :: back ∧ items.erase found = front ++ back ∧
      ∀ other ∈ front, test other = false := by
  obtain ⟨htest, front, back, hsplit, hfront⟩ := List.find?_eq_some_iff_append.mp h
  refine ⟨front, back, hsplit, ?_, fun other hmem => by simpa using hfront other hmem⟩
  have hnot : found ∉ front := by
    intro hmem
    have := hfront found hmem
    simp [htest] at this
  rw [hsplit, List.erase_append_right _ hnot, List.erase_cons_head]

/-- An element of a list with one more element behind it is that one or stands before it. -/
theorem append_singleton_eq_iff {items before after : List α} {last item : α} :
    items ++ [last] = before ++ item :: after ↔
      (before = items ∧ item = last ∧ after = []) ∨
        ∃ rest, after = rest ++ [last] ∧ items = before ++ item :: rest := by
  constructor
  · intro hplace
    rcases after.eq_nil_or_concat with rfl | ⟨rest, other, rfl⟩
    · obtain ⟨rfl, rfl⟩ := List.append_singleton_inj.mp hplace
      exact .inl ⟨rfl, rfl, rfl⟩
    · rw [List.concat_eq_append, ← List.cons_append, ← List.append_assoc] at hplace
      obtain ⟨rfl, rfl⟩ := List.append_singleton_inj.mp hplace
      exact .inr ⟨rest, List.concat_eq_append, rfl⟩
  · rintro (⟨rfl, rfl, rfl⟩ | ⟨rest, rfl, rfl⟩)
    · rfl
    · simp

/-- What is not in a part of a list with one element behind it is not needed there. -/
theorem sublist_of_notMem {part items : List α} {last : α}
    (h : part.Sublist (items ++ [last])) (hnot : last ∉ part) : part.Sublist items := by
  obtain ⟨first, second, rfl, hfirst, hsecond⟩ := List.sublist_append_iff.mp h
  rcases List.sublist_singleton.mp hsecond with rfl | rfl
  · rwa [List.append_nil]
  · exact absurd (List.mem_append_right _ (List.mem_singleton_self last)) hnot

/-! ### Pairs -/

section Pairs

variable {a b : α} {items part : List α}

/-- A pair stands in the rest of a list, or its first element is the head. -/
theorem pair_cons_iff {x : α} :
    [a, b].Sublist (x :: items) ↔ [a, b].Sublist items ∨ a = x ∧ b ∈ items := by
  rw [List.cons_sublist_cons', List.singleton_sublist]

/-- Both elements of a pair are in the list. -/
theorem mem_of_pair (h : [a, b].Sublist items) : a ∈ items ∧ b ∈ items :=
  ⟨h.subset (by simp), h.subset (by simp)⟩

/-- Two elements stand in one order only. -/
theorem not_both_orders (hnodup : items.Nodup) (h : [a, b].Sublist items)
    (h' : [b, a].Sublist items) : False := by
  induction items with
  | nil => cases h
  | cons x items ih =>
    obtain ⟨hx, hnodup⟩ := List.nodup_cons.mp hnodup
    rcases pair_cons_iff.mp h with hrest | ⟨rfl, hb⟩
    · rcases pair_cons_iff.mp h' with hrest' | ⟨rfl, -⟩
      · exact ih hnodup hrest hrest'
      · exact hx (mem_of_pair hrest).2
    · rcases pair_cons_iff.mp h' with hrest' | ⟨rfl, -⟩
      · exact hx (mem_of_pair hrest').2
      · exact hx hb

/-- The first element that passes a test stands before the others that pass it. -/
theorem pair_of_find {test : α → Bool} (h : items.find? test = some a) (hb : b ∈ items)
    (htest : test b) (hne : b ≠ a) : [a, b].Sublist items := by
  obtain ⟨-, front, back, rfl, hfront⟩ := List.find?_eq_some_iff_append.mp h
  have hback : b ∈ back := by
    rcases List.mem_append.mp hb with hin | hin
    · have hnot := hfront b hin
      simp [htest] at hnot
    · exact (List.mem_cons.mp hin).resolve_left hne
  exact (pair_cons_iff.mpr (.inr ⟨rfl, hback⟩)).trans (List.sublist_append_right ..)

/-- Elements of a part stand there as they stand in the whole. -/
theorem pair_of_part (hpart : part.Sublist items) (hnodup : items.Nodup) (ha : a ∈ part)
    (hb : b ∈ part) (h : [a, b].Sublist items) : [a, b].Sublist part := by
  induction hpart with
  | slnil => cases ha
  | @cons part items x hpart ih =>
    obtain ⟨hx, hnodup⟩ := List.nodup_cons.mp hnodup
    rcases pair_cons_iff.mp h with h | ⟨rfl, -⟩
    · exact ih hnodup ha hb h
    · exact absurd (hpart.subset ha) hx
  | @cons_cons part items x hpart ih =>
    obtain ⟨hx, hnodup⟩ := List.nodup_cons.mp hnodup
    rcases pair_cons_iff.mp h with h | ⟨rfl, hback⟩
    · obtain ⟨hmem, hmem'⟩ := mem_of_pair h
      have hne {c : α} (hc : c ∈ items) : c ≠ x := by
        rintro rfl
        exact hx hc
      have ha' := (List.mem_cons.mp ha).resolve_left (hne hmem)
      have hb' := (List.mem_cons.mp hb).resolve_left (hne hmem')
      exact (ih hnodup ha' hb' h).cons x
    · have hne : b ≠ a := by
        rintro rfl
        exact hx hback
      exact pair_cons_iff.mpr (.inr ⟨rfl, (List.mem_cons.mp hb).resolve_left hne⟩)

end Pairs

end BeeProtocol.Lists
