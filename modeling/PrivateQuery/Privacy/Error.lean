import PrivateQuery.Frame.Basic
import PrivateQuery.Fault
import PrivateQuery.Privacy.Noise

/-!
# Errors of mechanisms

Why noise cannot be set up, calibrated, accounted for or drawn.
-/
namespace PrivateQuery

inductive MechanismError where
  | scale (x : Float)
  | tolerance (x : Float)
  | alpha (x : Float)
  | delta (x : Float)
  /-- Only Gaussian noise has a loss for every `δ`. -/
  | fixedDelta (noise : Noise)
  | incomparable (loss target : Loss)
  | inconvertible (loss : Loss)
  /-- Histograms take noise that is made of integers. -/
  | continuousCounts
  /-- The normal distribution has no such deviation. -/
  | deviation
  | noFiniteScale
  | noScaleWithin (steps : Nat)
  | data (error : FrameError)
  | other (text : String)
deriving DecidableEq

namespace MechanismError

def kind? : MechanismError → Option String
  | noFiniteScale | noScaleWithin _ => some "Calibration"
  | data _ => some "Data"
  | other _ => none
  | _ => some "InvalidParameter"

def description : MechanismError → String
  | scale x => "scale must be finite and non-negative, got " ++ Decimal.plain x
  | tolerance x => "tolerance must be positive, got " ++ Decimal.plain x
  | alpha x => "alpha must be in (0, 1), got " ++ Decimal.plain x
  | delta x => "delta must be in (0, 1), got " ++ Decimal.plain x
  | fixedDelta noise => "cannot fix delta of " ++ noise.toString
  | incomparable loss target => loss.toString ++ " cannot be compared to " ++ target.toString
  | inconvertible loss =>
    loss.toString ++ " cannot be converted to approximate differential privacy"
  | continuousCounts => "histogram counts require discrete noise"
  | deviation => "Bad distribution parameters"
  | noFiniteScale => "no finite scale satisfies the privacy target"
  | noScaleWithin steps => "no scale found in " ++ toString steps ++ " steps"
  | data error => error.message
  | other text => text

def message (e : MechanismError) : String :=
  match e.kind? with
  | some kind => kind ++ ": " ++ e.description
  | none => e.description

end MechanismError

/-- An answer of a mechanism, or why there is none. -/
abbrev Mechanism.Attempt (α : Type) : Type := PrivateQuery.Attempt MechanismError α

end PrivateQuery
