import PrivateQuery.Dictionary
import PrivateQuery.Query.Budget
import PrivateQuery.Value.Basic

/-!
# Steps

A query is a list of steps: transforms of the working columns, then one measure.
-/
namespace PrivateQuery

/-- What a count or a sum is taken of, and under which noise. -/
structure Measure where
  column : String
  mechanism : Mechanism
deriving DecidableEq, Repr

/-- Column names and values between which a histogram is taken. -/
structure Bin where
  column : String
  values : List Value
deriving DecidableEq

inductive Step where
  | select (columns : List String)
  | filter (predicates : List String)
  | rename (mapping : Dictionary String)
  | bin (bin : Bin)
  | count (measure : Measure)
  | sum (measure : Measure)

def Bin.toString (b : Bin) : String :=
  b.column ++ "[" ++ ", ".intercalate (b.values.map Value.toString) ++ "]"

instance : ToString Bin := ⟨Bin.toString⟩

namespace Step

def name : Step → String
  | select _ => "select"
  | filter _ => "filter"
  | rename _ => "rename"
  | bin _ => "bin"
  | count _ => "count"
  | sum _ => "sum"

/-- What stands in the parentheses after the name. -/
def arguments : Step → List String
  | select columns => columns
  | filter predicates => predicates
  | rename mapping => mapping.entries.map fun (old, new) => old ++ " -> " ++ new
  | bin b => [b.column, "[" ++ ", ".intercalate (b.values.map Value.toString) ++ "]"]
  | count m | sum m => [m.column, m.mechanism.toString]

def toString (step : Step) : String := step.name ++ "(" ++ ", ".intercalate step.arguments ++ ")"

instance : ToString Step := ⟨Step.toString⟩

end Step

end PrivateQuery
