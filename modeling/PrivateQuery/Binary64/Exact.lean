/-!
# Doubles as exact numbers

`Binary64.read` says what a double denotes: a dyadic number `± significand * 2 ^ exponent`, an
infinity, or no number. `Binary64.nearest` goes back: the double closest to a quotient of naturals,
the even one of two equally close. Everything that reads, writes or rounds a double goes through
these two.
-/
namespace PrivateQuery.Binary64

/-- What a double denotes. -/
inductive Reading where
  | nan
  | infinite (negative : Bool)
  /-- `± significand * 2 ^ exponent`; both zeros have significand 0. -/
  | finite (negative : Bool) (significand : Nat) (exponent : Int)
deriving DecidableEq, Repr

/-- The exact meaning of a double. -/
def read (x : Float) : Reading :=
  let bits := x.toBits
  let negative := bits >>> 63 == 1
  let scale := ((bits >>> 52) &&& 0x7FF).toNat
  let fraction := (bits &&& 0xFFFFFFFFFFFFF).toNat
  if scale == 2047 then
    if fraction == 0 then .infinite negative else .nan
  else if scale == 0 then .finite negative fraction (-1074)
  else .finite negative (fraction + 0x10000000000000) ((scale : Int) - 1075)

def infinity : Float := Float.ofBits 0x7FF0000000000000

def nan : Float := Float.ofBits 0x7FF8000000000000

/-- `x` with its sign bit set when `negative`. -/
def signed (negative : Bool) (x : Float) : Float := if negative then -x else x

/-- `num / den` rounded to a natural, a half going to the even neighbour. -/
def divRound (num den : Nat) : Nat :=
  let quotient := num / den
  let twice := 2 * (num % den)
  if twice < den then quotient
  else if den < twice then quotient + 1
  else quotient + quotient % 2

/-- The largest `k` with `2 ^ k ≤ num / den`, for a positive quotient. -/
def log2Quotient (num den : Nat) : Int :=
  let k : Int := (num.log2 : Int) - (den.log2 : Int)
  let below := if 0 ≤ k then num < den * Nat.pow 2 k.toNat else num * Nat.pow 2 (-k).toNat < den
  if below then k - 1 else k

/-- The double nearest to `± num / den`, the even one of two equally near; quotients from
`2 ^ 1024 - 2 ^ 970` on are infinite. The bits of a finite result are the rounded significand on
top of its scale, and a carry out of the significand moves to the next scale by itself. -/
def nearest (negative : Bool) (num den : Nat) : Float :=
  signed negative <|
    if num == 0 then 0
    else
      let unit : Int := max (log2Quotient num den - 52) (-1074)
      let significand :=
        if 0 ≤ unit then divRound num (den * Nat.pow 2 unit.toNat)
        else divRound (num * Nat.pow 2 (-unit).toNat) den
      let bits := (unit + 1074).toNat * 0x10000000000000 + significand
      if bits < 0x7FF0000000000000 then Float.ofBits bits.toUInt64 else infinity

def ofInt (i : Int) : Float := nearest (i < 0) i.natAbs 1

def ofNat (n : Nat) : Float := nearest false n 1

/-- The double nearest to `± significand * 2 ^ exponent`. -/
def ofDyadic (negative : Bool) (significand : Nat) (exponent : Int) : Float :=
  if 0 ≤ exponent then nearest negative (significand * Nat.pow 2 exponent.toNat) 1
  else nearest negative significand (Nat.pow 2 (-exponent).toNat)

/-! ## Closed checks -/

example : read 1.5 = .finite false (3 * 2 ^ 51) (-52) := by decide +kernel
example : read (-0.0) = .finite true 0 (-1074) := by decide +kernel
example : nearest false 1 10 = 0.1 := by decide +kernel
example : ofDyadic true 1 (-1074) = Float.ofBits 0x8000000000000001 := by decide +kernel
example : ofInt (2 ^ 53 + 1) = 9007199254740992.0 := by decide +kernel
example : ofNat (2 ^ 1024) = infinity := by decide +kernel

end PrivateQuery.Binary64
