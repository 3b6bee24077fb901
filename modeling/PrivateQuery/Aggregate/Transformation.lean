import PrivateQuery.Frame.Basic
import PrivateQuery.Word.Signed

/-!
# Aggregations

What is computed on a frame before noise is added, and how far it can move when rows are added or
removed. A sum counts a missing cell as zero and brings every cell between its bounds.
-/
namespace PrivateQuery

inductive Transformation where
  /-- The number of rows. -/
  | count (column : String)
  /-- The number of rows in each category; other rows do not count. -/
  | countBy (column : String) (categories : List Value)
  | integerSum (column : String) (low high : Int64)
  | floatSum (column : String) (low high : Float)
deriving DecidableEq

/-- The outcome of an aggregation. -/
inductive Aggregate where
  | integer (i : Int64)
  | real (x : Float)
  | counts (counts : List Int64)
deriving DecidableEq

def Aggregate.toString : Aggregate → String
  | integer i => "Integer(" ++ ToString.toString i.toInt ++ ")"
  | real x => "Float(" ++ Decimal.tagged x ++ ")"
  | counts ns =>
    "Counts([" ++ ", ".intercalate (ns.map fun i => ToString.toString i.toInt) ++ "])"

namespace Transformation

def column : Transformation → String
  | count column | countBy column _ | integerSum column _ _ | floatSum column _ _ => column

/-- Whether the outcome is made of integers. -/
def isIntegral : Transformation → Bool
  | floatSum .. => false
  | _ => true

def toString : Transformation → String
  | count column => "count(" ++ column ++ ")"
  | countBy column categories =>
    "count(" ++ column ++ ") by [" ++ ", ".intercalate (categories.map Value.toString) ++ "]"
  | integerSum column low high =>
    "sum(" ++ column ++ " clamped to [" ++ ToString.toString low.toInt ++ ", "
      ++ ToString.toString high.toInt ++ "])"
  | floatSum column low high =>
    "sum(" ++ column ++ " clamped to [" ++ Decimal.plain low ++ ", " ++ Decimal.plain high ++ "])"

instance : ToString Transformation := ⟨Transformation.toString⟩

/-! ## Stability -/

/-- The most that one row can move the outcome. A row moves a single category by one, so for
histograms this holds of the sum of the moves and of the root of the sum of their squares. -/
def sensitivity : Transformation → Float
  | count _ | countBy .. => 1
  | integerSum _ low high => Binary64.ofNat (max low.toInt.natAbs high.toInt.natAbs)
  | floatSum _ low high => Binary64.maximum low.abs high.abs

/-- The most that `rows` added or removed rows can move the outcome. -/
def stability (rows : Float) : Transformation → Float
  | count _ | countBy .. => rows
  | t => rows * t.sensitivity

/-! ## Outcome -/

/-- The cell of an integer sum, brought between the bounds; the upper one wins. -/
def integerPart (low high : Int64) (v : Value) : Int64 :=
  Word.clamp (min (max (v.toInt64?.getD 0).toInt low.toInt) high.toInt)

/-- The cell of a sum of doubles, brought between the bounds; the upper one wins. -/
def floatPart (low high : Float) (v : Value) : Float :=
  Binary64.minimum (Binary64.maximum (v.toFloat?.getD 0) low) high

/-- The cells of a sum of doubles, added up in the numbers that `read` takes doubles to. -/
def sumParts {S : Type} [OfNat S 0] [Add S] (read : Float → S) (low high : Float)
    (values : List Value) : S :=
  (values.map fun v => read (floatPart low high v)).foldl (· + ·) 0

/-- A number of rows as a word. -/
def tally (rows : Nat) : Int64 := Word.clamp rows

/-- Count a value for the first category that is the same. -/
def countValue (categories : List Value) (counts : List Nat) (v : Value) : List Nat :=
  match categories.findIdx? (· == v) with
  | some i => counts.modify i (· + 1)
  | none => counts

/-- The number of values in each category. -/
def countAll (categories values : List Value) : List Nat :=
  values.foldl (countValue categories) (List.replicate categories.length 0)

/-- The outcome on the values of the column. -/
def applyTo (values : List Value) : Transformation → Aggregate
  | count _ => .integer (tally values.length)
  | countBy _ categories => .counts ((countAll categories values).map tally)
  | integerSum _ low high => .integer ((values.map (integerPart low high)).foldl Word.addClamped 0)
  | floatSum _ low high => .real (sumParts id low high values)

/-- The outcome on a frame, which must have the column. -/
def apply (t : Transformation) (frame : Frame) : Except FrameError Aggregate :=
  (frame.column t.column).map fun values => t.applyTo values

end Transformation

end PrivateQuery
