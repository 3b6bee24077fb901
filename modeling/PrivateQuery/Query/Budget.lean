import PrivateQuery.Decimal.Layout
import PrivateQuery.Json.Decoding

/-!
# Budgets, notions and mechanisms

What an analyst asks privacy for: how much of it may be spent, in which sense, and by which kind of
noise.
-/
namespace PrivateQuery

/-- A privacy budget. A `delta` that is not given stands for zero, and is still told apart from a
zero that is. -/
structure Budget where
  epsilon : Float
  delta? : Option Float
deriving DecidableEq

namespace Budget

def delta (b : Budget) : Float := b.delta?.getD 0

/-- Whether the budget has no `delta` to spend. -/
def isPure (b : Budget) : Bool := b.delta == 0

def toString (b : Budget) : String :=
  "(ε = " ++ Decimal.plain b.epsilon ++ ", δ = " ++ Decimal.plain b.delta ++ ")"

instance : ToString Budget := ⟨Budget.toString⟩

def decode : Json.Decoder Budget := fun p document => do
  let fields ← Json.fieldsOf ["epsilon", "delta"] document
  some ⟨← fields.required p "epsilon" .float, ← fields.getD p "delta" (.optional .float) none⟩

def toJson (b : Budget) : Json :=
  .object (("epsilon", .ofFloat b.epsilon) :: match b.delta? with
    | some delta => [("delta", .ofFloat delta)]
    | none => [])

end Budget

/-- The sense in which a release is private. -/
inductive Notion where
  | pureDP
  | approxDP
deriving DecidableEq, Repr

namespace Notion

def toString : Notion → String
  | pureDP => "PureDP"
  | approxDP => "ApproxDP"

instance : ToString Notion := ⟨Notion.toString⟩

def decode : Json.Decoder Notion := .choice [("PureDP", pureDP), ("ApproxDP", approxDP)]

def toJson (notion : Notion) : Json := .text notion.toString

end Notion

/-- The distribution of noise. -/
inductive Mechanism where
  | laplace
  | gaussian
deriving DecidableEq, Repr

namespace Mechanism

def toString : Mechanism → String
  | laplace => "Laplace"
  | gaussian => "Gaussian"

instance : ToString Mechanism := ⟨Mechanism.toString⟩

/-- In documents the Gaussian mechanism has a short name and a long one. -/
def decode : Json.Decoder Mechanism :=
  .choice [("Laplace", laplace), ("Gauss", gaussian), ("Gaussian", gaussian)]

def toJson : Mechanism → Json
  | laplace => .text "Laplace"
  | gaussian => .text "Gauss"

end Mechanism

end PrivateQuery
