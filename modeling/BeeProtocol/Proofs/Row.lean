import BeeProtocol.Row
import Mathlib.Data.List.Basic

/-!
# Look-ups in a row

A row is asked for a value by position or by the name of a column, for the value as it is or as a
wanted kind. In a row with a value for each column all ways agree: a name stands for the position of
the first column that has it, and a value comes to the same wherever it was found.
-/

namespace BeeProtocol

namespace Wanted

/-- What a value is as a wanted kind. -/
inductive Reads : {α : Type} → Wanted α → Value → α → Prop
  | integer (i : Int64) : Reads .integer (.integer i) i
  | number (x : Binary64) : Reads .number (.number x) x
  | widened (i : Int64) : Reads .number (.integer i) (.ofInt i.toInt)
  | boolean (b : Bool) : Reads .boolean (.boolean b) b
  | string (text : String) : Reads .string (.string text) text
  | blob (blob : Blob) : Reads .blob (.bytes blob) blob

/-- Whether the values of a kind can be had as the wanted one: an integer is also a number. -/
def Admits {α : Type} (wanted : Wanted α) (kind : DataType) : Prop :=
  kind = wanted.dataType ∨ wanted.dataType = .number ∧ kind = .integer

/-- The failure to have a value of some kind as the wanted one. -/
def mismatch {α : Type} (wanted : Wanted α) (kind : DataType) : ClientError :=
  .typeConversion s!"expected {wanted.dataType.name}, got {kind.name}"

variable {α : Type} {wanted : Wanted α} {value : Value} {result : α}

/-- A value is read as a type if it is of that type. -/
theorem read?_eq_some_iff : wanted.read? value = some result ↔ wanted.Reads value result := by
  constructor
  · intro h
    cases wanted <;> cases value <;> cases h
    · exact .integer _
    · exact .widened _
    · exact .number _
    · exact .boolean _
    · exact .string _
    · exact .blob _
  · intro h
    cases h <;> rfl

/-- A value is something as the wanted kind exactly if that admits its kind. -/
theorem exists_reads_iff :
    (∃ result, wanted.Reads value result) ↔ wanted.Admits value.dataType := by
  constructor
  · rintro ⟨result, h⟩
    cases h with
    | widened i => exact .inr ⟨rfl, rfl⟩
    | _ => exact .inl rfl
  · rintro (hsame | ⟨hnumber, hinteger⟩)
    · cases wanted <;> cases value <;> cases hsame
      · exact ⟨_, .integer _⟩
      · exact ⟨_, .number _⟩
      · exact ⟨_, .boolean _⟩
      · exact ⟨_, .string _⟩
      · exact ⟨_, .blob _⟩
    · cases wanted <;> cases hnumber
      cases value <;> cases hinteger
      exact ⟨_, .widened _⟩

/-- A value is converted to a type if it is of that type. -/
theorem convert_eq_ok_iff : wanted.convert value = .ok result ↔ wanted.Reads value result := by
  rw [← read?_eq_some_iff]
  unfold convert
  cases wanted.read? value <;> simp

/-- The only failure of a conversion names both kinds. -/
theorem convert_eq_error_iff {reason : ClientError} :
    wanted.convert value = .error reason ↔
      ¬ wanted.Admits value.dataType ∧ reason = wanted.mismatch value.dataType := by
  rw [← exists_reads_iff]
  simp only [← read?_eq_some_iff]
  unfold convert mismatch
  cases wanted.read? value with
  | none => simp [eq_comm]
  | some result => simp

end Wanted

namespace Row

/-- A row has as many values as columns. -/
def IsAligned (row : Row) : Prop := row.columns.length = row.values.length

/-- The column at a position is the first one of a name. -/
structure IsFirst (row : Row) (name : String) (i : Nat) : Prop where
  /-- The column has the name. -/
  named : (row.columns[i]?).map (·.name) = some name
  /-- No earlier column has it. -/
  first : ∀ j < i, (row.columns[j]?).map (·.name) ≠ some name

variable {row : Row} {name : String} {i : Nat} {value : Value}

/-! ### Where a name leads -/

/-- A name is looked up at its first column. -/
theorem indexOf?_eq_some_iff : row.indexOf? name = some i ↔ row.IsFirst name i := by
  unfold indexOf?
  rw [List.findIdx?_eq_some_iff_getElem]
  constructor
  · rintro ⟨hi, hnamed, hfirst⟩
    refine ⟨?_, fun j hj => ?_⟩
    · simpa [List.getElem?_eq_getElem hi] using hnamed
    · have hnot := hfirst j hj
      simpa [List.getElem?_eq_getElem (Nat.lt_trans hj hi)] using hnot
  · rintro ⟨hnamed, hfirst⟩
    obtain ⟨column, hcolumn, hname⟩ := Option.map_eq_some_iff.mp hnamed
    obtain ⟨hi, rfl⟩ := List.getElem?_eq_some_iff.mp hcolumn
    refine ⟨hi, by simpa using hname, fun j hj => ?_⟩
    have hnot := hfirst j hj
    simpa [List.getElem?_eq_getElem (Nat.lt_trans hj hi)] using hnot

/-- A name is not found if no column has it. -/
theorem indexOf?_eq_none_iff :
    row.indexOf? name = none ↔ ∀ column ∈ row.columns, column.name ≠ name := by
  simp [indexOf?, List.findIdx?_eq_none_iff]

/-- A name that a column has leads somewhere. -/
theorem exists_isFirst (h : ∃ column ∈ row.columns, column.name = name) :
    ∃ i, row.IsFirst name i := by
  cases hindex : row.indexOf? name with
  | some i => exact ⟨i, indexOf?_eq_some_iff.mp hindex⟩
  | none =>
    obtain ⟨column, hmem, hname⟩ := h
    exact absurd hname (indexOf?_eq_none_iff.mp hindex column hmem)

/-- The first column of a name is one of the columns. -/
theorem IsFirst.lt_length (h : row.IsFirst name i) : i < row.columns.length := by
  obtain ⟨column, hcolumn, -⟩ := Option.map_eq_some_iff.mp h.named
  exact (List.getElem?_eq_some_iff.mp hcolumn).1

/-- A value is looked up by name where the first column of that name is. -/
theorem IsFirst.get?_eq (h : row.IsFirst name i) : row.get? name = row.at? i := by
  rw [get?, indexOf?_eq_some_iff.mpr h, Option.bind_some]

/-! ### What stands at a position -/

/-- An aligned row has no value exactly beyond its columns. -/
theorem IsAligned.at?_eq_none_iff (h : row.IsAligned) :
    row.at? i = none ↔ row.columns.length ≤ i := by
  rw [at?, List.getElem?_eq_none_iff, h]

/-- An aligned row has a value for every column. -/
theorem IsAligned.exists_value (h : row.IsAligned) (hi : i < row.columns.length) :
    ∃ value, row.at? i = some value := by
  rw [← Option.ne_none_iff_exists', Ne, h.at?_eq_none_iff]
  omega

section

variable {α : Type} (wanted : Wanted α)

/-- A value that is there is converted. -/
theorem atAs_of_at? (h : row.at? i = some value) : row.atAs wanted i = wanted.convert value := by
  rw [atAs, h]

/-- A value that is found by name is converted. -/
theorem getAs_of_get? (h : row.get? name = some value) :
    row.getAs wanted name = wanted.convert value := by
  rw [getAs, h]

/-- A value that is found is nothing if it is null, and is converted otherwise. -/
theorem getOptional_of_get? (h : row.get? name = some value) :
    row.getOptional wanted name =
      if value = .nil then .ok none else (row.getAs wanted name).map some := by
  rw [getAs_of_get? wanted h, getOptional, h]
  cases value <;> rfl

/-- There is nothing behind the last column, and only there. -/
theorem IsAligned.atAs_eq_columnNotFound_iff (h : row.IsAligned) {column : String} :
    row.atAs wanted i = .error (.columnNotFound column) ↔
      row.columns.length ≤ i ∧ column = s!"#{i}" := by
  rw [← h.at?_eq_none_iff]
  cases hvalue : row.at? i with
  | none =>
    have hmissing : row.atAs wanted i = .error (.columnNotFound s!"#{i}") := by rw [atAs, hvalue]
    rw [hmissing]
    simp [eq_comm]
  | some value =>
    rw [atAs_of_at? wanted hvalue, Wanted.convert_eq_error_iff]
    simp [Wanted.mismatch]

end

/-! ### The ways agree -/

/-- What the look-ups in a row come to. -/
structure LooksUpAlike (row : Row) : Prop where
  /-- A name that no column has leads nowhere. -/
  missing : ∀ name, (∀ column ∈ row.columns, column.name ≠ name) →
    row.indexOf? name = none ∧ row.get? name = none ∧
      ∀ {α : Type} (wanted : Wanted α),
        row.getAs wanted name = .error (.columnNotFound name) ∧
          row.getOptional wanted name = .error (.columnNotFound name)
  /-- Any other name leads to the first column that has it. -/
  found : ∀ name, (∃ column ∈ row.columns, column.name = name) →
    ∃ i value, row.IsFirst name i ∧ row.indexOf? name = some i ∧
      row.values[i]? = some value ∧ row.get? name = some value ∧
        ∀ {α : Type} (wanted : Wanted α), row.getAs wanted name = row.atAs wanted i ∧
          row.getOptional wanted name =
            if value = .nil then .ok none else (row.getAs wanted name).map some
  /-- A value is converted exactly if its kind is admitted. -/
  converts : ∀ i value, row.values[i]? = some value → ∀ {α : Type} (wanted : Wanted α),
    (∃ result, row.atAs wanted i = .ok result) ↔ wanted.Admits value.dataType
  /-- A value that is converted is of the wanted type. -/
  reads : ∀ i value, row.values[i]? = some value → ∀ {α : Type} (wanted : Wanted α) (result : α),
    row.atAs wanted i = .ok result → wanted.Reads value result
  /-- A value of any other kind is refused by the names of both kinds. -/
  refuses : ∀ i value, row.values[i]? = some value → ∀ {α : Type} (wanted : Wanted α),
    ¬ wanted.Admits value.dataType → row.atAs wanted i = .error (wanted.mismatch value.dataType)
  /-- There is nothing behind the last column, and only there. -/
  behind : ∀ i {α : Type} (wanted : Wanted α) (column : String),
    row.atAs wanted i = .error (.columnNotFound column) ↔
      row.columns.length ≤ i ∧ column = s!"#{i}"
  /-- The columns are paired with the values at their positions, none left out. -/
  paired : row.pairs.length = row.columns.length ∧
    ∀ i column, row.columns[i]? = some column →
      ∃ value, row.at? i = some value ∧ row.pairs[i]? = some (column, value)

/-- All ways to look at an aligned row agree. -/
theorem looksUpAlike_of_isAligned (h : row.IsAligned) : row.LooksUpAlike where
  missing name hnone := by
    have hindex : row.indexOf? name = none := indexOf?_eq_none_iff.mpr hnone
    have hget : row.get? name = none := by rw [get?, hindex, Option.bind_none]
    refine ⟨hindex, hget, fun wanted => ⟨?_, ?_⟩⟩
    · rw [getAs, hget]
    · rw [getOptional, hget]
  found name hsome := by
    obtain ⟨i, hfirst⟩ := exists_isFirst hsome
    obtain ⟨value, hvalue⟩ := h.exists_value hfirst.lt_length
    have hget : row.get? name = some value := hfirst.get?_eq.trans hvalue
    refine ⟨i, value, hfirst, indexOf?_eq_some_iff.mpr hfirst, hvalue, hget, fun wanted => ?_⟩
    refine ⟨?_, getOptional_of_get? wanted hget⟩
    rw [getAs_of_get? wanted hget, atAs_of_at? wanted hvalue]
  converts i value hvalue α wanted := by
    rw [atAs_of_at? wanted hvalue, ← Wanted.exists_reads_iff]
    simp only [Wanted.convert_eq_ok_iff]
  reads i value hvalue α wanted result hresult := by
    rw [atAs_of_at? wanted hvalue] at hresult
    exact Wanted.convert_eq_ok_iff.mp hresult
  refuses i value hvalue α wanted hnot := by
    rw [atAs_of_at? wanted hvalue, Wanted.convert_eq_error_iff]
    exact ⟨hnot, rfl⟩
  behind i α wanted column := h.atAs_eq_columnNotFound_iff wanted
  paired := by
    constructor
    · rw [pairs, List.length_zip, ← h, Nat.min_self]
    · intro i column hcolumn
      obtain ⟨value, hvalue⟩ := h.exists_value (List.getElem?_eq_some_iff.mp hcolumn).1
      exact ⟨value, hvalue, List.getElem?_zip_eq_some.mpr ⟨hcolumn, hvalue⟩⟩

end Row

end BeeProtocol
