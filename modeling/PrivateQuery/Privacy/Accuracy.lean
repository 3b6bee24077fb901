import PrivateQuery.Binary64.Integral
import PrivateQuery.Privacy.Error
import PrivateQuery.Privacy.Quantile

/-!
# Accuracy: `scale_to_accuracy`

The bound that the size of the noise exceeds with probability at most `alpha`. Three of the four
distributions have it in closed form; for discrete Gaussian noise the weights of the integers are
added up, outward until they vanish against their sum and then inward (`tailBound`).
-/
namespace PrivateQuery.Accuracy

def laplace (scale alpha : Float) : Float := scale * Binary64.ln (1 / alpha)

def discreteLaplace (scale alpha : Float) : Float :=
  if scale == 0 then 0
  else
    Binary64.maximum
      (scale * Binary64.ln (2 / (alpha * (Binary64.exp (1 / scale) + 1))) + 1) 0

def gaussian (scale alpha : Float) : Float :=
  if scale == 0 then 0 else scale * Normal.quantile (1 - alpha / 2)

/-! ## The discrete Gaussian tail -/

section Tail

variable {S : Type} [Add S] [Sub S] [LT S] [DecidableLT S]

/-- The sum of a weight over the integers around zero, taken outward from `next` until a pair of
terms vanishes against it, with the integer where that happens; absent if it takes too many
rounds. -/
def sumOutward (vanishes : (term total : S) → Bool) (weight : Nat → S) : (rounds : Nat) →
    (total : S) → (next : Nat) → Option (S × Nat)
  | 0, _, _ => none
  | rounds + 1, total, next =>
    let term := weight next + weight next
    if vanishes term total then some (total, next)
    else sumOutward vanishes weight rounds (total + term) (next + 1)

/-- The first integer from `next` on whose tail is not above the bound, or the one that is `left`
places on. -/
def firstWithin (bound : S) (weight : Nat → S) : (left : Nat) → (tail : S) → (next : Nat) → Nat
  | 0, _, next => next
  | left + 1, tail, next =>
    if bound < tail then
      firstWithin bound weight left (tail - (weight next + weight next)) (next + 1)
    else next

/-- The smallest positive integer whose tail weighs at most the share `share total` of all weights,
where only the weights that do not vanish count. -/
def tailBound (vanishes : (term total : S) → Bool) (share : S → S) (weight : Nat → S)
    (rounds : Nat) : Option Nat :=
  (sumOutward vanishes weight rounds (weight 0) 1).map fun (total, cutoff) =>
    firstWithin (share total) weight (cutoff - 1) (total - weight 0) 1

end Tail

/-- The spacing of the doubles above one. -/
def epsilon : Float := Float.ofBits 0x3CB0000000000000

/-- The weight of an integer under a Gaussian of the given variance. -/
def weight (variance : Float) (x : Nat) : Float :=
  let x := Binary64.ofNat x
  Binary64.exp (-x * x / (2 * variance))

/-- Above this scale the discrete tail is the continuous one, rounded up. -/
def exactScale : Float := 10000

/-- Rounds enough for the weights of a scale to vanish, which they do within nine scales. -/
def roundsFor (scale : Float) : Nat := 10 * (Binary64.truncate scale).natAbs + 20

/-- The smallest integer that discrete Gaussian noise reaches in size with probability at most
`alpha`; absent if the weights do not vanish (`discrete_gaussian`). -/
def discreteGaussian (scale alpha : Float) : Option Float :=
  if scale == 0 then some 0
  else if exactScale < scale then some (Binary64.ceil (gaussian scale alpha))
  else
    (tailBound (fun term total => decide (term ≤ epsilon * total)) (alpha * ·)
      (weight (scale * scale)) (roundsFor scale)).map Binary64.ofNat

/-- The bound for a distribution (`scale_to_accuracy`). -/
def ofScale (scale alpha : Float) (discrete : Bool) (mechanism : Mechanism) :
    Mechanism.Attempt Float :=
  if ¬ (0 < alpha ∧ alpha < 1) then Attempt.raise (.alpha alpha)
  else if ¬ isScale scale then Attempt.raise (.scale scale)
  else
    match discrete, mechanism with
    | false, .laplace => .ok (laplace scale alpha)
    | true, .laplace => .ok (discreteLaplace scale alpha)
    | false, .gaussian => .ok (gaussian scale alpha)
    | true, .gaussian =>
      match discreteGaussian scale alpha with
      | some bound => .ok bound
      | none => .error .stalled

end PrivateQuery.Accuracy
