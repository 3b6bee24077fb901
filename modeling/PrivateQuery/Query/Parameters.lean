import PrivateQuery.Json.Decoding

/-!
# Parameters

What can be tuned: the precision of the search for a scale and the steps it may take, the size of
histograms, and the seed of the noise, which is fresh when none is given.
-/
namespace PrivateQuery

structure Parameters where
  tolerance : Float
  calibrationSteps : Nat
  maxCategories : Nat
  seed? : Option Nat
deriving DecidableEq

namespace Parameters

def standard : Parameters := ⟨1e-9, 1024, 65536, none⟩

/-- Fields that are not given keep their standard value. -/
def decode : Json.Decoder Parameters := fun p document => do
  let fields ← Json.fieldsOf
    ["calibration_tolerance", "max_calibration_steps", "max_categories", "seed"] document
  some {
    tolerance := ← fields.getD p "calibration_tolerance" .float standard.tolerance
    calibrationSteps := ← fields.getD p "max_calibration_steps" .natural standard.calibrationSteps
    maxCategories := ← fields.getD p "max_categories" .natural standard.maxCategories
    seed? := ← fields.getD p "seed" (.optional .natural) standard.seed? }

def toJson (p : Parameters) : Json :=
  .object [("calibration_tolerance", .ofFloat p.tolerance),
    ("max_calibration_steps", .integer p.calibrationSteps),
    ("max_categories", .integer p.maxCategories),
    ("seed", match p.seed? with
      | some seed => .integer seed
      | none => .null)]

end Parameters

end PrivateQuery
