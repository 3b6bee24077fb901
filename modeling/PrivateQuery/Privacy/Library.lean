import PrivateQuery.Privacy.Accuracy
import PrivateQuery.Privacy.Calibration
import PrivateQuery.Privacy.Measurement
import PrivateQuery.Query.Parameters

/-!
# Libraries of mechanisms: `MechanismLibrary`

What is needed of a library to compile a query: to chain an aggregation with noise, to find the
smallest scale within a target loss, and to bound the noise. `Library.standard` is the one that
comes with this project.
-/
namespace PrivateQuery

structure Library where
  /-- An aggregation followed by noise of a mechanism, discrete or not, at a scale. -/
  addNoise : Transformation → Mechanism → (discrete : Bool) → (scale : Float) →
    Mechanism.Attempt Measurement
  /-- The smallest scale whose measurement has a loss within the target, when inputs differ by
  `rows` rows. -/
  calibrate : (measurementAt : Float → Mechanism.Attempt Measurement) → (rows : Float) →
    (target : Loss) → Mechanism.Attempt Float
  /-- The bound that noise exceeds with probability `alpha`. -/
  accuracy : (scale alpha : Float) → (discrete : Bool) → Mechanism → Mechanism.Attempt Float

namespace Library

/-- The error that a failed search is reported as. -/
def calibrationError (steps : Nat) : Calibration.Failure Float → MechanismError
  | .tolerance x => .tolerance x
  | .outOfRange => .noFiniteScale
  | .outOfSteps => .noScaleWithin steps

/-- Whether the measurement at a scale has a loss within the target. -/
def accepts (measurementAt : Float → Mechanism.Attempt Measurement) (rows : Float) (target : Loss)
    (scale : Float) : Mechanism.Attempt Bool := do
  let measurement ← measurementAt scale
  let loss ← Attempt.ofExcept (measurement.loss rows)
  Attempt.ofExcept (loss.within target)

/-- The library of this project, whose search goes by the given parameters. -/
def standard (parameters : Parameters) : Library where
  addNoise t mechanism discrete scale := Attempt.ofExcept do
    return ⟨t, ← Noise.ofScale mechanism discrete scale, none⟩
  calibrate measurementAt rows target :=
    Calibration.search
      (fun failure => Attempt.raise (calibrationError parameters.calibrationSteps failure))
      (accepts measurementAt rows target) parameters.tolerance parameters.calibrationSteps
  accuracy := Accuracy.ofScale

end Library

end PrivateQuery
