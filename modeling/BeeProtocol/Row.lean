import BeeProtocol.Message.Basic

/-!
# Result rows

A row pairs the values of a result with the header's columns by position. A value is found by
position or by the name of its column, the first column of a name counting, and may be converted to
a wanted kind.
-/

namespace BeeProtocol

/-- A row of a result. -/
structure Row where
  /-- The columns of the result. -/
  columns : List Column
  /-- The values of the row. -/
  values : List Value
  deriving DecidableEq

/-- A kind of value that a caller can ask for, with the type it is converted to. -/
inductive Wanted : Type → Type 1
  | integer : Wanted Int64
  | number : Wanted Binary64
  | boolean : Wanted Bool
  | string : Wanted String
  | blob : Wanted Blob

namespace Wanted

/-- The kind whose name stands in a failed conversion. -/
def dataType {α : Type} : Wanted α → DataType
  | integer => .integer
  | number => .number
  | boolean => .boolean
  | string => .string
  | blob => .bytes

/-- The value as the wanted kind, if it is of that kind; an integer is also a number. -/
def read? {α : Type} : Wanted α → Value → Option α
  | integer, value => value.integer?
  | number, value => value.number?
  | boolean, value => value.boolean?
  | string, value => value.text?
  | blob, value => value.blob?

/-- Converts a value to the wanted kind. -/
def convert {α : Type} (wanted : Wanted α) (value : Value) : Except ClientError α :=
  match wanted.read? value with
  | some result => .ok result
  | none =>
    .error (.typeConversion s!"expected {wanted.dataType.name}, got {value.dataType.name}")

end Wanted

namespace Row

/-- The number of values. -/
def size (row : Row) : Nat := row.values.length

/-- The position of the first column of a name. -/
def indexOf? (row : Row) (name : String) : Option Nat :=
  row.columns.findIdx? fun column => column.name == name

/-- The value at a position. -/
def at? (row : Row) (index : Nat) : Option Value := row.values[index]?

/-- The value of the first column of a name. -/
def get? (row : Row) (name : String) : Option Value := (row.indexOf? name).bind row.at?

/-- The value of a column as a wanted kind. -/
def getAs {α : Type} (row : Row) (wanted : Wanted α) (name : String) : Except ClientError α :=
  match row.get? name with
  | none => .error (.columnNotFound name)
  | some value => wanted.convert value

/-- The value at a position as a wanted kind. -/
def atAs {α : Type} (row : Row) (wanted : Wanted α) (index : Nat) : Except ClientError α :=
  match row.at? index with
  | none => .error (.columnNotFound s!"#{index}")
  | some value => wanted.convert value

/-- The value of a column as a wanted kind, or nothing if it is nil. -/
def getOptional {α : Type} (row : Row) (wanted : Wanted α) (name : String) :
    Except ClientError (Option α) :=
  match row.get? name with
  | none => .error (.columnNotFound name)
  | some .nil => .ok none
  | some value => (wanted.convert value).map some

/-- The columns paired with their values. -/
def pairs (row : Row) : List (Column × Value) := row.columns.zip row.values

/-- The text of a row, each column with its value. -/
def toText (row : Row) : String :=
  let fields := row.pairs.map fun (column, value) => column.name ++ ": " ++ value.toText
  "\x7b" ++ ", ".intercalate fields ++ "\x7d"

/-- Equality of rows as a program sees it: a row with a NaN differs from itself. -/
def equals (a b : Row) : Bool :=
  a.columns == b.columns && a.values.length == b.values.length
    && (a.values.zip b.values).all fun (x, y) => x.equals y

end Row

end BeeProtocol
