import PrivateQuery.Noise.Normal
import PrivateQuery.Privacy.Measurement

/-!
# Perturbation: `perturb` and `invoke`

Noise added to an aggregate: integers stay integers under discrete noise and stop at the ends of a
word, everything else becomes a double. A histogram has each of its counts perturbed in turn and
takes discrete noise only.
-/
namespace PrivateQuery

namespace Noise

def drawInteger (n : Noise) (attempts : Nat) : Sampler Int64 :=
  match n.mechanism with
  | .laplace => drawDiscreteLaplace n.scale
  | .gaussian => drawDiscreteGaussian n.scale attempts

def drawFloat (n : Noise) (attempts : Nat) : Sampler Float :=
  match n.mechanism with
  | .laplace => drawLaplace n.scale attempts
  | .gaussian => drawGaussian n.scale attempts

/-- Each count with noise of its own. -/
def perturbCounts (n : Noise) (attempts : Nat) : (counts : List Int64) → Sampler (List Int64)
  | [] => return []
  | c :: counts => do
    let x ← n.drawInteger attempts
    let rest ← n.perturbCounts attempts counts
    return Word.addClamped c x :: rest

/-- An aggregate with noise. -/
def perturb (n : Noise) (attempts : Nat) (aggregate : Aggregate) : Sampler Aggregate :=
  match aggregate, n.discrete with
  | .integer i, true => do return .integer (Word.addClamped i (← n.drawInteger attempts))
  | .integer i, false => do return .real (Binary64.ofInt i.toInt + (← n.drawFloat attempts))
  | .real x, true => do return .real (x + Binary64.ofInt (← n.drawInteger attempts).toInt)
  | .real x, false => do return .real (x + (← n.drawFloat attempts))
  | .counts counts, true => do return .counts (← n.perturbCounts attempts counts)
  | .counts _, false => throw (.raised .continuousCounts)

end Noise

namespace Measurement

/-- Aggregate a frame and add noise. -/
def invoke (m : Measurement) (attempts : Nat) (frame : Frame) : Sampler Aggregate :=
  match m.transformation.apply frame with
  | .ok aggregate => m.noise.perturb attempts aggregate
  | .error e => throw (.raised (.data e))

end Measurement

end PrivateQuery
