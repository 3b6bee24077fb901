import PrivateQuery.Binary64.Exact

/-!
# Exponential and natural logarithm

Both are computed in fixed point with 160 fractional bits from the exact meaning of the argument,
and rounded once by `Binary64.nearest`. The only approximations are the truncated series below, far
under the spacing of doubles.
-/
namespace PrivateQuery.Binary64

/-- Fractional bits of the fixed-point numbers in this module. -/
def fixedBits : Nat := 160

def fixedOne : Nat := 1 <<< fixedBits

/-- The natural logarithm of two, in fixed point. -/
def fixedLn2 : Nat := 0xb17217f7d1cf79abc9e3b39803f2f6af40f34326

def fixedMul (a b : Nat) : Nat := (a * b) >>> fixedBits

/-! ## Exponential -/

/-- `1 + s + s ^ 2 / 2! + …` to the term of degree `first + terms - 1`, from the inside out, divided
by the factorial already taken. -/
def expSeries (s : Nat) : (terms first : Nat) → Nat
  | 0, _ => fixedOne
  | terms + 1, first => fixedOne + fixedMul s (expSeries s terms (first + 1)) / first

def squareTimes : (n a : Nat) → Nat
  | 0, a => a
  | n + 1, a => squareTimes n (fixedMul a a)

/-- The exponential of a fixed-point number below `ln 2`. -/
def fixedExp (r : Nat) : Nat := squareTimes 12 (expSeries (r >>> 12) 12 1)

/-- `e ^ x`, rounded to the nearest double. -/
def exp (x : Float) : Float :=
  match read x with
  | .nan => nan
  | .infinite negative => if negative then 0 else infinity
  | .finite negative significand exponent =>
    if 710 < x then infinity
    else if x < -746 then 0
    else
      let shift : Int := exponent + fixedBits
      let magnitude : Nat :=
        if 0 ≤ shift then significand <<< shift.toNat else significand >>> (-shift).toNat
      let t : Int := if negative then -(magnitude : Int) else magnitude
      ofDyadic false (fixedExp (t % fixedLn2).toNat) (t / fixedLn2 - fixedBits)

/-! ## Natural logarithm -/

/-- `1 + w / 3 + w ^ 2 / 5 + …`, from the inside out, starting with `1 / odd`. -/
def atanhSeries (w : Nat) : (terms odd : Nat) → Nat
  | 0, odd => fixedOne / odd
  | terms + 1, odd => fixedOne / odd + fixedMul w (atanhSeries w terms (odd + 2))

/-- The logarithm of a positive fixed-point number near one, as twice the inverse hyperbolic tangent
of `(y - 1) / (y + 1)`. -/
def fixedLn (y : Nat) : Int :=
  let z : Nat := (((y : Int) - fixedOne).natAbs <<< fixedBits) / (y + fixedOne)
  let magnitude : Nat := 2 * fixedMul z (atanhSeries (fixedMul z z) 34 1)
  if y < fixedOne then -(magnitude : Int) else magnitude

/-- The natural logarithm, rounded to the nearest double: minus infinity at either zero, no number
below. -/
def ln (x : Float) : Float :=
  match read x with
  | .nan => nan
  | .infinite negative => if negative then nan else infinity
  | .finite negative significand exponent =>
    if significand == 0 then -infinity
    else if negative then nan
    else
      let top := significand.log2
      let y := significand <<< (fixedBits - top)
      let k : Int := exponent + top
      -- Halve what is above 3/2, to keep the argument of the series at most a fifth.
      let (y, k) := if fixedOne + fixedOne / 2 < y then (y >>> 1, k + 1) else (y, k)
      let l : Int := k * fixedLn2 + fixedLn y
      nearest (l < 0) l.natAbs fixedOne

end PrivateQuery.Binary64
