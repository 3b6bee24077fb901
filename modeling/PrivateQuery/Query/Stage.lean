import PrivateQuery.Query.Step

/-!
# Stages of a query: `State`

How far a query has come: transforms first, then at most one bin, then one measure, whose noise
follows at once.
-/
namespace PrivateQuery

inductive Stage where
  | awaitingTransform
  /-- A bin has been given and its count has not. -/
  | awaitingCount (bin : Bin)
  /-- A measure has been taken and its noise has not been added. -/
  | measuring (mechanism : Mechanism)
  | noiseAdded
deriving DecidableEq

namespace Stage

def toString : Stage → String
  | awaitingTransform => "awaiting transform"
  | awaitingCount bin => "awaiting count of " ++ bin.toString
  | measuring mechanism => "measuring with " ++ mechanism.toString
  | noiseAdded => "noise added"

instance : ToString Stage := ⟨Stage.toString⟩

end Stage

end PrivateQuery
