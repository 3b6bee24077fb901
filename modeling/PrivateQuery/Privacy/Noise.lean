import PrivateQuery.Privacy.Loss

/-!
# Noise

A noise distribution at a fixed scale, which is finite and not negative, and what it costs.
-/
namespace PrivateQuery

/-- Whether noise can have this scale. -/
def isScale (scale : Float) : Bool := scale.isFinite && 0 ≤ scale

structure Noise where
  mechanism : Mechanism
  /-- Whether only integers are drawn. -/
  discrete : Bool
  scale : Float
  /-- The scale is finite and not negative. -/
  isScale_scale : isScale scale = true
deriving DecidableEq

namespace Noise

def toString (n : Noise) : String :=
  (if n.discrete then "discrete " else "") ++ n.mechanism.toString ++ "(scale = "
    ++ Decimal.plain n.scale ++ ")"

instance : ToString Noise := ⟨Noise.toString⟩

/-- The loss when the noise hides moves up to `sensitivity`: Laplace noise is accounted in pure
privacy, Gaussian noise in zero-concentrated privacy (`Noise.privacy_loss`). -/
def loss (n : Noise) (sensitivity : Float) : Loss :=
  let ratio := if sensitivity == 0 then 0 else sensitivity / n.scale
  match n.mechanism with
  | .laplace => .pure ratio
  | .gaussian => .concentrated (ratio * ratio / 2)

end Noise

end PrivateQuery
