import PrivateQuery.Binary64.Exact

/-!
# Calibration: `binary_search_scale`

The search for the smallest scale that a test accepts: from one it doubles until a scale is
accepted, then halves until one is refused, then bisects until the interval is narrow enough. What
it returns has been accepted. The number of steps is bounded by the caller, and every test but two
takes a step.

The search runs over any scalars and in any monad that its test runs in, so that the scales it tries
can be recorded.
-/
namespace PrivateQuery

/-- What the search needs of a scale. -/
class Scalar (S : Type) extends Zero S, One S, Add S, Sub S, Mul S, LT S where
  half : S → S
  isFinite : S → Bool
  decidableLT : DecidableLT S

instance Scalar.instDecidableLT {S : Type} [Scalar S] : DecidableLT S := Scalar.decidableLT

instance : Scalar Float where
  zero := 0
  one := 1
  half x := x / 2
  isFinite := Float.isFinite
  decidableLT := inferInstance

namespace Calibration

/-- Why the search ends without a scale. -/
inductive Failure (S : Type) where
  | tolerance (x : S)
  | outOfRange
  | outOfSteps

variable {S : Type} [Scalar S] {m : Type → Type} [Monad m]

/-- Narrow an interval whose upper end is accepted and whose lower end is refused. -/
def bisect (test : S → m Bool) (tolerance : S) : (steps : Nat) → (upper lower : S) → m S
  | 0, upper, _ => return upper
  | steps + 1, upper, lower =>
    if tolerance * upper < upper - lower then do
      let middle := lower + Scalar.half (upper - lower)
      if ← test middle then bisect test tolerance steps middle lower
      else bisect test tolerance steps upper middle
    else return upper

/-- Lower an accepted scale by halves until one is refused, then bisect. -/
def lower (test : S → m Bool) (tolerance : S) : (steps : Nat) → (upper next : S) → m S
  | 0, upper, next => do if ← test next then return next else return upper
  | steps + 1, upper, next => do
    if ← test next then
      if 0 < next then lower test tolerance steps next (Scalar.half next) else return next
    else bisect test tolerance (steps + 1) upper next

/-- Raise a scale by doubling until one is accepted; with it go the steps that are left. -/
def raise (fail : Failure S → m (S × Nat)) (test : S → m Bool) : (steps : Nat) → (scale : S) →
    m (S × Nat)
  | 0, scale => do if ← test scale then return (scale, 0) else fail .outOfSteps
  | steps + 1, scale => do
    if ← test scale then return (scale, steps + 1)
    else
      let double := scale + scale
      if Scalar.isFinite double then raise fail test steps double else fail .outOfRange

/-- The smallest accepted scale, up to a relative tolerance, for a test that accepts every scale
above an accepted one (`binary_search_scale`). -/
def search (fail : {α : Type} → Failure S → m α) (test : S → m Bool) (tolerance : S) (steps : Nat) :
    m S := do
  if 0 < tolerance then
    let (upper, steps) ← raise fail test steps 1
    lower test tolerance steps upper (Scalar.half upper)
  else fail (.tolerance tolerance)

end Calibration

end PrivateQuery
