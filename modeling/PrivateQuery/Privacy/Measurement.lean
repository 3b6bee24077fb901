import PrivateQuery.Aggregate.Transformation
import PrivateQuery.Privacy.Error

/-!
# Measurements

A measurement is an aggregation with the noise that is added to its outcome. Its loss is that of the
noise at the stability of the aggregation; for Gaussian noise it can be stated for a fixed `δ`.
-/
namespace PrivateQuery

/-- Noise at a scale, which must be finite and not negative (`Noise.new`). -/
def Noise.ofScale (mechanism : Mechanism) (discrete : Bool) (scale : Float) :
    Except MechanismError Noise :=
  if h : isScale scale = true then .ok ⟨mechanism, discrete, scale, h⟩ else .error (.scale scale)

/-- Whether a loss is covered by another; losses of different measures cannot be compared, except
that a pure loss counts as an approximate one. -/
def Loss.within (loss target : Loss) : Except MechanismError Bool :=
  match loss.within? target with
  | some covered => .ok covered
  | none => .error (.incomparable loss target)

structure Measurement where
  transformation : Transformation
  noise : Noise
  /-- The `δ` that the loss is stated for. -/
  delta? : Option Float
deriving DecidableEq

namespace Measurement

def toString (m : Measurement) : String := m.transformation.toString ++ " + " ++ m.noise.toString

instance : ToString Measurement := ⟨Measurement.toString⟩

/-- State the loss of Gaussian noise for a `δ` between zero and one (`fix_delta`). -/
def fixDelta (m : Measurement) (delta : Float) : Except MechanismError Measurement :=
  if m.noise.mechanism ≠ .gaussian then .error (.fixedDelta m.noise)
  else if 0 < delta ∧ delta < 1 then .ok { m with delta? := some delta }
  else .error (.delta delta)

/-- The loss when inputs differ by `rows` rows (`Measurement.privacy_loss`). -/
def loss (m : Measurement) (rows : Float) : Except MechanismError Loss :=
  let loss := m.noise.loss (m.transformation.stability rows)
  match loss, m.delta? with
  | loss, none => .ok loss
  | .concentrated rho, some delta => .ok (.approximate (Loss.epsilonOf rho delta) delta)
  | loss, some _ => .error (.inconvertible loss)

end Measurement

end PrivateQuery
