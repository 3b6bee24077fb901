import PrivateQuery.Value.Basic

/-!
# Comparison of values

Values of one kind are compared within it, and an integer with a double as doubles. All other pairs,
and all pairs with NaN, are incomparable.
-/
namespace PrivateQuery

/-- The order of doubles, which leaves out NaN and does not tell the two zeros apart. -/
def compareFloats? (x y : Float) : Option Ordering :=
  if x < y then some .lt else if x == y then some .eq else if y < x then some .gt else none

namespace Value

def compare? : Value → Value → Option Ordering
  | boolean a, boolean b => some (compare a b)
  | integer a, integer b => some (compare a.toInt b.toInt)
  | text s, text t => some (compare s t)
  | a, b =>
    match a.toFloat?, b.toFloat? with
    | some x, some y => compareFloats? x y
    | _, _ => none

example : compare? (integer 1) (real 1.0) = some .eq := by decide +kernel
example : compare? (real Binary64.nan) (real 1.0) = none := by decide
example : compare? (text "B") (text "a") = some .lt := by decide

end Value

end PrivateQuery
