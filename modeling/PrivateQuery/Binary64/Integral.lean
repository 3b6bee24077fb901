import PrivateQuery.Binary64.Exact

/-!
# Doubles and integers

Truncation, floor and ceiling of a double, each computed on its exact meaning, and the remainder of
two doubles that is never negative.
-/
namespace PrivateQuery.Binary64

/-- The integer part of a finite double; zero for an infinity or no number. -/
def truncate (x : Float) : Int :=
  match read x with
  | .finite negative significand exponent =>
    let magnitude : Nat :=
      if 0 ≤ exponent then significand * Nat.pow 2 exponent.toNat
      else significand / Nat.pow 2 (-exponent).toNat
    if negative then -(magnitude : Int) else magnitude
  | _ => 0

/-- The integer part of a double, brought into the given range; infinities go to its ends and no
number goes to zero. -/
def clampedTruncate (low high : Int) (x : Float) : Int :=
  match read x with
  | .nan => 0
  | .infinite negative => if negative then low else high
  | .finite .. => max low (min high (truncate x))

/-- Whether a double is an integer. -/
def isWhole (x : Float) : Bool :=
  match read x with
  | .finite _ significand exponent => 0 ≤ exponent || significand % Nat.pow 2 (-exponent).toNat == 0
  | _ => false

/-- The largest integral double not above `x`; infinities, zeros and no number are kept. -/
def floor (x : Float) : Float :=
  match read x with
  | .finite negative _ _ =>
    if isWhole x then x else if negative then ofInt (truncate x - 1) else ofInt (truncate x)
  | _ => x

/-- The smallest integral double not below `x`; a negative value above -1 becomes negative zero. -/
def ceil (x : Float) : Float :=
  match read x with
  | .finite negative _ _ =>
    if isWhole x then x
    else if negative then signed true (ofInt (-truncate x)) else ofInt (truncate x + 1)
  | _ => x

/-- The remainder of `x` by `y` with the sign of `x`, exact. -/
def remainder (x y : Float) : Float :=
  match read x, read y with
  | .finite negative m e, .finite _ n f =>
    if n == 0 then nan
    else
      let unit := min e f
      ofDyadic negative
        ((m * Nat.pow 2 (e - unit).toNat) % (n * Nat.pow 2 (f - unit).toNat)) unit
  | .finite .., .infinite _ => x
  | _, _ => nan

/-- The remainder of `x` by `y` that is not negative. -/
def euclideanRemainder (x y : Float) : Float :=
  let r := remainder x y
  if r < 0 then r + y.abs else r

/-- The larger of two doubles; no number gives way to the other operand. -/
def maximum (x y : Float) : Float := if x.isNaN then y else if x < y then y else x

/-- The smaller of two doubles; no number gives way to the other operand. -/
def minimum (x y : Float) : Float := if x.isNaN then y else if y < x then y else x

/-! ## Closed checks -/

example : truncate (-2.5) = -2 ∧ floor (-2.5) = -3.0 ∧ ceil (-2.5) = -2.0 := by decide +kernel
example : ceil (-0.5) = -0.0 := by decide +kernel
example : clampedTruncate 0 10 infinity = 10 ∧ clampedTruncate 0 10 nan = 0 := by decide +kernel
example : euclideanRemainder (-7.5) 2.0 = 0.5 := by decide +kernel
example : maximum nan 1.0 = 1.0 ∧ maximum 1.0 nan = 1.0 := by decide +kernel

end PrivateQuery.Binary64
