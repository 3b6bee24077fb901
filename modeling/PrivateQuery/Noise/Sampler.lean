import PrivateQuery.Binary64.Elementary
import PrivateQuery.Binary64.Integral
import PrivateQuery.Noise.Generator
import PrivateQuery.Privacy.Error
import PrivateQuery.Word.Signed

/-!
# Samplers: `laplace`, `geometric`, `discrete_laplace`, `discrete_gaussian`

Noise is drawn word by word from a generator; the words drawn before a fault stay drawn. Sampling
by rejection may need any number of words, so every loop is given a number of attempts after which it
stalls. At scale zero no word is drawn and the noise is zero.
-/
namespace PrivateQuery

/-- A computation that draws words. -/
abbrev Sampler (α : Type) : Type := ExceptT (Fault MechanismError) (StateM Generator) α

namespace Noise

/-- The next word of the generator. -/
def drawWord : Sampler UInt64 := modifyGet Generator.next

/-! ## Uniform variables -/

/-- `2 ^ -52` and `2 ^ -53`. -/
def unit52 : Float := Float.ofBits 0x3CB0000000000000

def unit53 : Float := Float.ofBits 0x3CA0000000000000

/-- The upper 53 bits of a word as a number from zero to less than one. -/
def unitOf (word : UInt64) : Float := (word >>> 11).toFloat * unit53

def drawUnit : Sampler Float := do return unitOf (← drawWord)

/-- A number strictly between zero and one. -/
def drawOpen : Sampler Float := do return (((← drawWord) >>> 12).toFloat + 0.5) * unit52

/-- A number from minus a half to less than a half. -/
def drawCentred : Sampler Float := do return ((← drawWord) >>> 12).toFloat * unit52 - 0.5

/-- Whether an event of probability `p` happens (`gen_bool`). A sure event draws no word, and there
is none for a number that is no probability. -/
def drawEvent (p : Float) : Sampler Bool :=
  if p == 1 then return true
  else if 0 ≤ p ∧ p < 1 then do
    let word ← drawWord
    return (word.toNat : Int) < Binary64.truncate (p * 18446744073709551616)
  else throw .crashed

/-! ## Laplace noise -/

/-- One with the sign of a number, of a zero too. -/
def signOf (x : Float) : Float := if x.toBits >>> 63 == 1 then -1 else 1

/-- Laplace noise by inversion of its distribution; an infinite outcome is drawn again
(`laplace`). -/
def drawLaplaceWithin (scale : Float) : (attempts : Nat) → Sampler Float
  | 0 => throw .stalled
  | attempts + 1 => do
    let u ← drawCentred
    let x := -scale * signOf u * Binary64.ln (1 - 2 * u.abs)
    if x.isFinite then return x else drawLaplaceWithin scale attempts

def drawLaplace (scale : Float) (attempts : Nat) : Sampler Float :=
  if scale == 0 then return 0 else drawLaplaceWithin scale attempts

/-- The number of failures before a success of probability `1 - exp (-1 / scale)` (`geometric`). -/
def drawGeometric (scale : Float) : Sampler Int64 := do
  let u := 1 - (← drawUnit)
  return Int64.ofInt (Binary64.clampedTruncate (-9223372036854775808) 9223372036854775807
    (Binary64.floor (-scale * Binary64.ln u)))

/-- Discrete Laplace noise, as the difference of two geometric variables (`discrete_laplace`). -/
def drawDiscreteLaplace (scale : Float) : Sampler Int64 :=
  if scale == 0 then return 0
  else do
    let a ← drawGeometric scale
    let b ← drawGeometric scale
    return Word.subClamped a b

/-! ## Discrete Gaussian noise -/

/-- The probability that a discrete Laplace variable of scale `t` is kept as a discrete Gaussian one
of the given variance. -/
def acceptance (variance t : Float) (y : Int64) : Float :=
  let d := Binary64.ofNat y.toInt.natAbs - variance / t
  Binary64.exp (-(d * d / (2 * variance)))

def drawDiscreteGaussianWithin (variance t : Float) : (attempts : Nat) → Sampler Int64
  | 0 => throw .stalled
  | attempts + 1 => do
    let y ← drawDiscreteLaplace t
    if ← drawEvent (acceptance variance t y) then return y
    else drawDiscreteGaussianWithin variance t attempts

/-- Discrete Gaussian noise, by rejection from discrete Laplace noise (`discrete_gaussian`). -/
def drawDiscreteGaussian (scale : Float) (attempts : Nat) : Sampler Int64 :=
  if scale == 0 then return 0
  else drawDiscreteGaussianWithin (scale * scale) (Binary64.floor scale + 1) attempts

end Noise

end PrivateQuery
