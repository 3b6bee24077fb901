import PrivateQuery.Binary64.Exact

/-!
# Decimal digits of a double

`Decimal.shortest` is the decimal with the fewest digits that reads back as the same double, and of
those the one nearest to it. `Decimal.rounded` has a fixed number of digits. Both work in exact
naturals on the significand and exponent of a finite positive double.
-/
namespace PrivateQuery

/-- The number `digits * 10 ^ exponent`. -/
structure Decimal where
  digits : Nat
  exponent : Int
deriving DecidableEq, Repr

namespace Decimal

/-- Which of two equally near decimals is taken. -/
inductive Tie where
  | up
  | even
deriving DecidableEq, Repr

/-- A positive quotient of naturals. -/
structure Quotient where
  num : Nat
  den : Nat

/-- `q / 10 ^ e`. -/
def Quotient.unscale (q : Quotient) (e : Int) : Quotient :=
  if 0 ≤ e then ⟨q.num, q.den * Nat.pow 10 e.toNat⟩ else ⟨q.num * Nat.pow 10 (-e).toNat, q.den⟩

/-- The largest `k` with `10 ^ k ≤ q`. The binary logarithm gives it up to one. -/
def Quotient.log10 (q : Quotient) : Int :=
  let guess := Binary64.log2Quotient q.num q.den * 30103 / 100000
  let above (k : Int) : Bool := let r := q.unscale k; r.den ≤ r.num
  if above (guess + 1) then guess + 1 else if above guess then guess else guess - 1

/-- `significand * 2 ^ exponent`. -/
def Quotient.ofDyadic (significand : Nat) (exponent : Int) : Quotient :=
  if 0 ≤ exponent then ⟨significand * Nat.pow 2 exponent.toNat, 1⟩
  else ⟨significand, Nat.pow 2 (-exponent).toNat⟩

/-- Drop trailing zeros, at most `fuel` of them. -/
def strip : (fuel : Nat) → Decimal → Decimal
  | 0, d => d
  | fuel + 1, d =>
    if d.digits % 10 == 0 && d.digits != 0 then strip fuel ⟨d.digits / 10, d.exponent + 1⟩ else d

/-- The decimals that read back as a double are those between two bounds, here in quarters of the
unit in the last place; the bounds themselves count when the significand is even. -/
structure Neighbourhood where
  low : Nat
  value : Nat
  high : Nat
  closed : Bool

/-- The neighbourhood of `significand * 2 ^ exponent`. Below a power of two the doubles lie twice as
dense, so the lower bound is nearer. -/
def Neighbourhood.of (significand : Nat) (exponent : Int) : Neighbourhood :=
  let gap := if significand == 0x10000000000000 && -1074 < exponent then 1 else 2
  ⟨4 * significand - gap, 4 * significand, 4 * significand + 2, significand % 2 == 0⟩

/-- On the grid of multiples of `10 ^ grid`, the one that reads back and is nearest to the value;
`quarter` is a quarter of the unit in the last place. -/
def onGrid (tie : Tie) (n : Neighbourhood) (quarter : Quotient) (grid : Int) : Option Nat :=
  -- Everything below is multiplied by `cell.den / 10 ^ grid`.
  let cell := quarter.unscale grid
  let value := n.value * cell.num
  let floor := value / cell.den
  let admits (bound multiple : Nat) (order : Nat → Nat → Bool) : Bool :=
    order (bound * cell.num) (multiple * cell.den)
      || (n.closed && bound * cell.num == multiple * cell.den)
  let below := admits n.low floor fun b m => b < m
  let above := admits n.high (floor + 1) fun b m => m < b
  let twice := 2 * (value % cell.den)
  if below && above then
    if twice < cell.den then some floor
    else if cell.den < twice then some (floor + 1)
    else match tie with
      | .up => some (floor + 1)
      | .even => some (floor + floor % 2)
  else if below then some floor
  else if above then some (floor + 1)
  else none

/-- The first grid, from coarse to fine, that has a decimal reading back. -/
def search (tie : Tie) (n : Neighbourhood) (quarter : Quotient) : (grids : Nat) → (grid : Int) →
    Decimal
  | 0, grid =>
    let cell := quarter.unscale grid
    ⟨n.value * cell.num / cell.den, grid⟩
  | grids + 1, grid =>
    match onGrid tie n quarter grid with
    | some digits => strip 20 ⟨digits, grid⟩
    | none => search tie n quarter grids (grid - 1)

/-- The fewest digits that read back as `significand * 2 ^ exponent`, nearest to it. Seventeen are
always enough. -/
def shortest (tie : Tie) (significand : Nat) (exponent : Int) : Decimal :=
  let top := (Quotient.ofDyadic significand exponent).log10
  search tie (Neighbourhood.of significand exponent) (Quotient.ofDyadic 1 (exponent - 2)) 17 top

/-- The `count + 1` leading digits of `significand * 2 ^ exponent`, a half going to the even
neighbour; trailing zeros are kept. -/
def rounded (count : Nat) (significand : Nat) (exponent : Int) : Decimal :=
  let q := Quotient.ofDyadic significand exponent
  let grid := q.log10 - count
  let cell := q.unscale grid
  let digits := Binary64.divRound cell.num cell.den
  if digits == Nat.pow 10 (count + 1) then ⟨Nat.pow 10 count, grid + 1⟩ else ⟨digits, grid⟩

/-! ## Closed checks -/

example : shortest .up 1 (-1074) = ⟨5, -324⟩ := by decide +kernel
example : shortest .up (3 * 2 ^ 51) (-52) = ⟨15, -1⟩ := by decide +kernel
example : rounded 9 1 1 = ⟨2000000000, -9⟩ := by decide +kernel

end Decimal

end PrivateQuery
