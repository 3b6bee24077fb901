import PrivateQuery.Binary64.Integral
import PrivateQuery.Decimal.Reading
import PrivateQuery.Text.Blank
import PrivateQuery.Value.Basic

/-!
# Columns

A column has a name and a type, with the public bounds or labels its owner declared. The type also
says how the text of a cell is read: what is empty or cannot be read is a missing value.
-/
namespace PrivateQuery

inductive ColumnType where
  | int (low high : Int64)
  | double (low high : Float)
  | labelled (labels : List String)
  | bool
  | text
deriving DecidableEq

structure Column where
  name : String
  type : ColumnType
deriving DecidableEq

namespace ColumnType

/-- The name of a type, without its bounds or labels. -/
def name : ColumnType → String
  | int .. => "Int"
  | double .. => "Double"
  | labelled _ => "Enum"
  | bool => "Bool"
  | text => "Text"

def isNumeric : ColumnType → Bool
  | int .. | double .. => true
  | _ => false

def toString : ColumnType → String
  | int low high => s!"int[{low.toInt}, {high.toInt}]"
  | double low high => s!"double[{Decimal.plain low}, {Decimal.plain high}]"
  | labelled labels => "enum(" ++ ", ".intercalate labels ++ ")"
  | bool => "bool"
  | text => "text"

instance : ToString ColumnType := ⟨ColumnType.toString⟩

/-! ## Cells -/

/-- An integral double strictly between `-2 ^ 63` and `2 ^ 63`, as a word. -/
def wholeWord? (x : Float) : Option Int64 :=
  if Binary64.isWhole x then
    let i := Binary64.truncate x
    if i.natAbs < 9223372036854775808 then Word.ofInt? i else none
  else none

/-- A cell of an integer column: an integer, or a double that is one. -/
def readInt? (cell : String) : Option Int64 :=
  (Decimal.readInt? cell).orElse fun _ => (Decimal.readFloat? cell).bind wholeWord?

/-- A cell of a yes-or-no column. -/
def readBool? (cell : String) : Option Bool :=
  let word := String.ofList (cell.toList.map Decimal.lower)
  if cell == "1" || word == "true" then some true
  else if cell == "0" || word == "false" then some false
  else none

/-- The value of a cell (`ColumnType.parse`). White space around a cell only matters in text, which
keeps it. -/
def read (type : ColumnType) (cell : String) : Value :=
  let trimmed := Text.trim cell
  if trimmed.isEmpty then .null
  else
    match type with
    | int .. => ((readInt? trimmed).map Value.integer).getD .null
    | double .. => ((Decimal.readFloat? trimmed).map Value.real).getD .null
    | bool => ((readBool? trimmed).map Value.boolean).getD .null
    | labelled _ | text => .text cell

end ColumnType

namespace Column

def toString (column : Column) : String := s!"{column.name}: {column.type}"

instance : ToString Column := ⟨Column.toString⟩

end Column

end PrivateQuery
