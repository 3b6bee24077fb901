import PrivateQuery.Decimal.Layout
import PrivateQuery.Proofs.Decimal.Neighbourhoods

/-!
# Shortest digits

The search for the digits of a double goes through finer and finer grids of decimals and takes what it
finds in the neighbourhood of the double (`onGrid_holds`, `onGrid_isSome`). The seventeenth grid is
finer than the neighbourhood is wide, so the search always ends with digits that read back
(`shortest_holds`).
-/
namespace PrivateQuery.Decimal

open Binary64

/-! ## Quotients -/

namespace Quotient

variable {q : Quotient}

/-- The number a quotient stands for. -/
noncomputable def size (q : Quotient) : ℝ := q.num / q.den

structure Positive (q : Quotient) : Prop where
  num : 0 < q.num
  den : 0 < q.den

theorem Positive.size (h : q.Positive) : 0 < q.size :=
  div_pos (Nat.cast_pos.2 h.num) (Nat.cast_pos.2 h.den)

theorem Positive.ofDyadic {m : ℕ} (positive : 0 < m) (e : ℤ) : (ofDyadic m e).Positive := by
  unfold Quotient.ofDyadic
  simp only [Nat.pow_eq]
  split_ifs
  · exact ⟨by positivity, one_pos⟩
  · exact ⟨positive, by positivity⟩

theorem size_ofDyadic (m : ℕ) (e : ℤ) : (ofDyadic m e).size = m * 2 ^ e := by
  unfold Quotient.ofDyadic Quotient.size
  simp only [Nat.pow_eq]
  split_ifs with sign
  · obtain ⟨k, rfl⟩ := Int.eq_ofNat_of_zero_le sign
    simp
  · obtain ⟨k, rfl⟩ : ∃ k : ℕ, e = -k := ⟨(-e).toNat, by omega⟩
    simp [div_eq_mul_inv]

theorem Positive.unscale (h : q.Positive) (g : ℤ) : (q.unscale g).Positive := by
  obtain ⟨num, den⟩ := h
  unfold Quotient.unscale
  simp only [Nat.pow_eq]
  split_ifs
  · exact ⟨num, by positivity⟩
  · exact ⟨by positivity, den⟩

theorem size_unscale (q : Quotient) (g : ℤ) : (q.unscale g).size = q.size / 10 ^ g := by
  unfold Quotient.unscale Quotient.size
  simp only [Nat.pow_eq]
  split_ifs with sign
  · obtain ⟨k, rfl⟩ := Int.eq_ofNat_of_zero_le sign
    simp [div_div]
  · obtain ⟨k, rfl⟩ : ∃ k : ℕ, g = -k := ⟨(-g).toNat, by omega⟩
    simp [mul_div_right_comm]

theorem Positive.mul_lt_iff (h : q.Positive) {a b : ℕ} :
    (a : ℝ) * q.size < b ↔ a * q.num < b * q.den := by
  rw [Quotient.size, mul_div_assoc', div_lt_iff₀ (Nat.cast_pos.2 h.den)]
  exact_mod_cast Iff.rfl

theorem Positive.lt_mul_iff (h : q.Positive) {a b : ℕ} :
    (b : ℝ) < a * q.size ↔ b * q.den < a * q.num := by
  rw [Quotient.size, mul_div_assoc', lt_div_iff₀ (Nat.cast_pos.2 h.den)]
  exact_mod_cast Iff.rfl

theorem Positive.mul_eq_iff (h : q.Positive) {a b : ℕ} :
    (a : ℝ) * q.size = b ↔ a * q.num = b * q.den := by
  rw [Quotient.size, mul_div_assoc', div_eq_iff (Nat.cast_pos.2 h.den).ne']
  exact_mod_cast Iff.rfl

end Quotient

/-! ## One grid -/

namespace Neighbourhood

/-- A multiple of a grid, here in cells, that the lower bound admits. -/
def From (n : Neighbourhood) (cell : Quotient) (k : ℕ) : Prop :=
  n.low * cell.num < k * cell.den ∨ n.closed = true ∧ n.low * cell.num = k * cell.den

/-- A multiple of a grid that the upper bound admits. -/
def UpTo (n : Neighbourhood) (cell : Quotient) (k : ℕ) : Prop :=
  k * cell.den < n.high * cell.num ∨ n.closed = true ∧ n.high * cell.num = k * cell.den

theorem holds_iff (n : Neighbourhood) {quarter : Quotient} (positive : quarter.Positive) (grid : ℤ)
    (k : ℕ) : n.Holds quarter.size (k * 10 ^ grid) ↔
      n.From (quarter.unscale grid) k ∧ n.UpTo (quarter.unscale grid) k := by
  have ten : (0 : ℝ) < 10 ^ grid := by positivity
  have cell := positive.unscale grid
  have bound (b : ℕ) :
      (b : ℝ) * quarter.size = b * (quarter.unscale grid).size * 10 ^ grid := by
    rw [Quotient.size_unscale, mul_assoc, div_mul_cancel₀ _ ten.ne']
  rw [Holds, bound, bound, mul_lt_mul_iff_left₀ ten, mul_lt_mul_iff_left₀ ten, mul_left_inj' ten.ne',
    mul_left_inj' ten.ne', eq_comm (a := (k : ℝ)), cell.mul_lt_iff, cell.lt_mul_iff, cell.mul_eq_iff,
    cell.mul_eq_iff, From, UpTo]

/-- A neighbourhood that is around its value. -/
structure Around (n : Neighbourhood) : Prop where
  low : n.low < n.value
  high : n.value < n.high

theorem around_of {m : ℕ} (positive : 0 < m) (e : ℤ) : (Neighbourhood.of m e).Around := by
  unfold Neighbourhood.of
  constructor
  · dsimp only
    split_ifs <;> omega
  · exact Nat.lt_add_of_pos_right two_pos

/-- A neighbourhood is four quarters of a unit wide, or three at a power of two. -/
theorem width_of {m : ℕ} (positive : 0 < m) (e : ℤ) :
    (Neighbourhood.of m e).low + 3 ≤ (Neighbourhood.of m e).high ∧
      (m ≠ 2 ^ 52 → (Neighbourhood.of m e).low + 4 = (Neighbourhood.of m e).high) := by
  unfold Neighbourhood.of
  dsimp only
  constructor
  · split_ifs <;> omega
  · intro ordinary
    rw [if_neg (by simp only [Bool.and_eq_true, beq_iff_eq]; omega)]
    omega

end Neighbourhood

section Grid

variable {tie : Tie} {n : Neighbourhood} {quarter : Quotient} {grid : ℤ} {k : ℕ}

/-- The multiple of a grid right below the value. -/
def floorOn (n : Neighbourhood) (cell : Quotient) : ℕ := n.value * cell.num / cell.den

/-- What is found on a grid is next to the value, and its bound on that side admits it. -/
theorem onGrid_cases (tie : Tie) (n : Neighbourhood) (quarter : Quotient) (grid : ℤ)
    {cell : Quotient} (hc : quarter.unscale grid = cell) :
    (onGrid tie n quarter grid = none ∧ ¬ n.From cell (floorOn n cell) ∧
      ¬ n.UpTo cell (floorOn n cell + 1)) ∨
    ∃ k, onGrid tie n quarter grid = some k ∧
      (k = floorOn n cell ∧ n.From cell k ∨ k = floorOn n cell + 1 ∧ n.UpTo cell k) := by
  have below : (decide (n.low * cell.num < floorOn n cell * cell.den) ||
      (n.closed && n.low * cell.num == floorOn n cell * cell.den)) = true ↔
        n.From cell (floorOn n cell) := by
    simp [Neighbourhood.From]
  have above : (decide ((floorOn n cell + 1) * cell.den < n.high * cell.num) ||
      (n.closed && n.high * cell.num == (floorOn n cell + 1) * cell.den)) = true ↔
        n.UpTo cell (floorOn n cell + 1) := by
    simp [Neighbourhood.UpTo]
  generalize result : onGrid tie n quarter grid = r
  unfold onGrid at result
  dsimp only at result
  rw [hc] at result
  unfold floorOn at below above ⊢
  generalize n.value * cell.num / cell.den = floor at below above result ⊢
  subst result
  split
  next both =>
    obtain ⟨hb, ha⟩ := Bool.and_eq_true_iff.1 both
    split
    · exact .inr ⟨floor, rfl, .inl ⟨rfl, below.1 hb⟩⟩
    · split
      · exact .inr ⟨floor + 1, rfl, .inr ⟨rfl, above.1 ha⟩⟩
      · cases tie with
        | up => exact .inr ⟨floor + 1, rfl, .inr ⟨rfl, above.1 ha⟩⟩
        | even =>
          rcases Nat.mod_two_eq_zero_or_one floor with even | odd
          · exact .inr ⟨floor, congrArg (fun r => some (floor + r)) even, .inl ⟨rfl, below.1 hb⟩⟩
          · exact .inr ⟨floor + 1, congrArg (fun r => some (floor + r)) odd, .inr ⟨rfl, above.1 ha⟩⟩
  next both =>
    split
    next hb => exact .inr ⟨floor, rfl, .inl ⟨rfl, below.1 hb⟩⟩
    next hb =>
      split
      next ha => exact .inr ⟨floor + 1, rfl, .inr ⟨rfl, above.1 ha⟩⟩
      next ha => exact .inl ⟨rfl, mt below.2 hb, mt above.2 ha⟩

/-- What a grid gives is in the neighbourhood. -/
theorem onGrid_holds (around : n.Around) (positive : quarter.Positive)
    (found : onGrid tie n quarter grid = some k) : n.Holds quarter.size (k * 10 ^ grid) := by
  obtain ⟨num, den⟩ := positive.unscale grid
  rw [n.holds_iff positive]
  generalize hc : quarter.unscale grid = cell at num den ⊢
  have least := Nat.mul_lt_mul_of_pos_right around.low num
  have most := Nat.mul_lt_mul_of_pos_right around.high num
  have floor := Nat.div_mul_le_self (n.value * cell.num) cell.den
  have next : n.value * cell.num < (floorOn n cell + 1) * cell.den :=
    Nat.lt_mul_of_div_lt (Nat.lt_succ_self _) den
  rcases onGrid_cases tie n quarter grid hc with ⟨none, -⟩ | ⟨k', some, sides⟩
  · exact absurd (found.symm.trans none) (by simp)
  · obtain rfl : k = k' := Option.some_inj.1 (found.symm.trans some)
    rcases sides with ⟨rfl, below⟩ | ⟨rfl, above⟩
    · exact ⟨below, .inl (floor.trans_lt most)⟩
    · exact ⟨.inl (least.trans next), above⟩

theorem onGrid_isSome (tie : Tie) (positive : quarter.Positive)
    (holds : n.Holds quarter.size (k * 10 ^ grid)) : (onGrid tie n quarter grid).isSome := by
  obtain ⟨num, den⟩ := positive.unscale grid
  rw [n.holds_iff positive] at holds
  generalize hc : quarter.unscale grid = cell at num den holds
  rcases onGrid_cases tie n quarter grid hc with ⟨-, below, above⟩ | ⟨k', some, -⟩
  · exfalso
    obtain ⟨low, high⟩ := holds
    unfold Neighbourhood.From at below low
    unfold Neighbourhood.UpTo at above high
    rcases Nat.lt_or_ge (floorOn n cell) k with more | less
    · have nearer : (floorOn n cell + 1) * cell.den ≤ k * cell.den := Nat.mul_le_mul_right _ more
      cases closed : n.closed <;>
        simp only [closed, reduceCtorEq, false_and, true_and, or_false] at above high <;> omega
    · have nearer := Nat.mul_le_mul_right cell.den less
      cases closed : n.closed <;>
        simp only [closed, reduceCtorEq, false_and, true_and, or_false] at below low <;> omega
  · rw [some]
    rfl

/-! ## The search -/

/-- The number that digits and an exponent stand for. -/
noncomputable def size (d : Decimal) : ℝ := d.digits * 10 ^ d.exponent

theorem strip_size (fuel : ℕ) (d : Decimal) :
    (strip fuel d).size = d.size ∧ d.exponent ≤ (strip fuel d).exponent := by
  induction fuel generalizing d with
  | zero => exact ⟨rfl, le_rfl⟩
  | succ fuel ih =>
    rw [strip]
    split
    next zero =>
      obtain ⟨same, le⟩ := ih ⟨d.digits / 10, d.exponent + 1⟩
      simp only [Bool.and_eq_true, beq_iff_eq] at zero
      have digits : (d.digits : ℝ) = (d.digits / 10 : ℕ) * 10 := by
        exact_mod_cast (Nat.div_mul_cancel (Nat.dvd_of_mod_eq_zero zero.1)).symm
      refine ⟨?_, by dsimp only at le; omega⟩
      rw [same, size, size, digits, zpow_add_one₀ (by norm_num)]
      ring
    next => exact ⟨rfl, le_rfl⟩

/-- A search that passes a grid with a decimal in the neighbourhood finds one, on a grid not finer. -/
theorem search_holds {grids : ℕ} {top : ℤ} (around : n.Around) (positive : quarter.Positive)
    (holds : n.Holds quarter.size (k * 10 ^ grid)) (least : top - grids < grid) (most : grid ≤ top) :
    n.Holds quarter.size (search tie n quarter grids top).size ∧
      grid ≤ (search tie n quarter grids top).exponent := by
  induction grids generalizing top with
  | zero => omega
  | succ grids ih =>
    rw [search]
    cases found : onGrid tie n quarter top with
    | some digits =>
      obtain ⟨same, le⟩ := strip_size 20 ⟨digits, top⟩
      dsimp only at le ⊢
      rw [same]
      exact ⟨onGrid_holds around positive found, most.trans le⟩
    | none =>
      refine ih (by omega) (lt_of_le_of_ne most ?_ |> Int.le_sub_one_of_lt)
      rintro rfl
      have some := onGrid_isSome tie positive holds
      rw [found] at some
      cases some

/-- A neighbourhood wider than a grid has one of its decimals. -/
theorem exists_holds (positive : quarter.Positive)
    (wide : (10 : ℝ) ^ grid < ((n.high : ℝ) - n.low) * quarter.size) :
    ∃ k : ℕ, n.Holds quarter.size (k * 10 ^ grid) := by
  have ten : (0 : ℝ) < 10 ^ grid := by positivity
  have unit := positive.size
  obtain ⟨k, floor⟩ : ∃ k, k = ⌊(n.low : ℝ) * quarter.size / 10 ^ grid⌋₊ := ⟨_, rfl⟩
  have low : (k : ℝ) * 10 ^ grid ≤ n.low * quarter.size := by
    rw [← le_div_iff₀ ten, floor]
    exact Nat.floor_le (by positivity)
  have next : (n.low : ℝ) * quarter.size < (k + 1) * 10 ^ grid := by
    rw [← div_lt_iff₀ ten, floor]
    exact Nat.lt_floor_add_one _
  refine ⟨k + 1, .inl ?_, .inl ?_⟩
  · exact_mod_cast next
  · push_cast
    linarith

end Grid

/-! ## Orders of magnitude -/

/-- The decimal order that is guessed from a binary one is at most one too large. -/
theorem guess_le {order : ℤ} (small : |order| ≤ 2000) :
    (10 : ℝ) ^ (order * 30103 / 100000 - 1) ≤ 2 ^ order := by
  obtain ⟨g, guess⟩ : ∃ g, g = order * 30103 / 100000 - 1 := ⟨_, rfl⟩
  rw [← guess]
  obtain ⟨low, high⟩ := abs_le.1 small
  -- Ten to the 93rd is about two to the 309th; the powers are compared after raising both to the 93rd.
  have raised : ((10 : ℝ) ^ g) ^ 93 ≤ (2 ^ order) ^ 93 := by
    rw [← zpow_natCast, ← zpow_natCast, ← zpow_mul, ← zpow_mul, mul_comm g, mul_comm order]
    have ten : (1 : ℝ) ≤ 10 := by norm_num
    rcases le_or_gt 0 order with nonneg | negative
    · rcases le_or_gt g 0 with small | large
      · exact (zpow_le_one_of_nonpos₀ ten (by omega)).trans (one_le_zpow₀ one_le_two (by omega))
      · have base : (10 : ℝ) ^ (93 : ℤ) ≤ 2 ^ (309 : ℤ) := by
          exact_mod_cast (by decide +kernel : 10 ^ 93 ≤ 2 ^ 309)
        calc (10 : ℝ) ^ (((93 : ℕ) : ℤ) * g) = (10 ^ (93 : ℤ)) ^ g := zpow_mul _ _ _
          _ ≤ (2 ^ (309 : ℤ)) ^ g := zpow_le_zpow_left₀ large.le (by positivity) base
          _ = 2 ^ (309 * g) := (zpow_mul _ _ _).symm
          _ ≤ 2 ^ (((93 : ℕ) : ℤ) * order) := zpow_le_zpow_right₀ one_le_two (by omega)
    · have base : (2 : ℝ) ^ (93 : ℤ) ≤ 10 ^ (28 : ℤ) := by
        exact_mod_cast (by decide +kernel : 2 ^ 93 ≤ 10 ^ 28)
      calc (10 : ℝ) ^ (((93 : ℕ) : ℤ) * g) ≤ 10 ^ (28 * order) := zpow_le_zpow_right₀ ten (by omega)
        _ = (10 ^ (28 : ℤ)) ^ order := zpow_mul _ _ _
        _ ≤ (2 ^ (93 : ℤ)) ^ order := by
            rw [← neg_neg order, zpow_neg _ (-order), zpow_neg _ (-order)]
            exact inv_anti₀ (by positivity)
              (zpow_le_zpow_left₀ (neg_nonneg.2 negative.le) (by positivity) base)
        _ = 2 ^ (((93 : ℕ) : ℤ) * order) := (zpow_mul _ _ _).symm
  exact le_of_pow_le_pow_left₀ (by norm_num) (by positivity) raised

theorem le_log10 {q : Quotient} (positive : q.Positive) (small : |log2Quotient q.num q.den| ≤ 2000) :
    (10 : ℝ) ^ q.log10 ≤ q.size := by
  have above {k : ℤ} (reached : (q.unscale k).den ≤ (q.unscale k).num) : (10 : ℝ) ^ k ≤ q.size := by
    have ten : (0 : ℝ) < 10 ^ k := by positivity
    have cell := q.size_unscale k
    rw [← one_le_div ten, ← cell, Quotient.size,
      one_le_div (Nat.cast_pos.2 (positive.unscale k).den)]
    exact_mod_cast reached
  unfold Quotient.log10
  dsimp only
  split
  next first => exact above (of_decide_eq_true first)
  next =>
    split
    next second => exact above (of_decide_eq_true second)
    next => exact (guess_le small).trans (log2Quotient_bounds positive.num positive.den).1

theorem log10_nonneg {q : Quotient} (positive : q.Positive) (one : 1 ≤ q.size) : 0 ≤ q.log10 := by
  have below {k : ℤ} (short : ¬ (q.unscale k).den ≤ (q.unscale k).num) : 0 < k := by
    have ten : (0 : ℝ) < 10 ^ k := by positivity
    have less : q.size / 10 ^ k < 1 := by
      rw [← Quotient.size_unscale, Quotient.size,
        div_lt_one (Nat.cast_pos.2 (positive.unscale k).den)]
      exact_mod_cast not_le.1 short
    rw [div_lt_one ten] at less
    exact (one_lt_zpow_iff_right₀ (by norm_num)).1 (one.trans_lt less)
  have order : 0 ≤ log2Quotient q.num q.den := by
    have above := one.trans_lt (log2Quotient_bounds positive.num positive.den).2
    have := (one_lt_zpow_iff_right₀ one_lt_two).1 above
    omega
  unfold Quotient.log10
  dsimp only
  split
  next => omega
  next first =>
    have := below (mt decide_eq_true first)
    split
    next => omega
    next second =>
      have := below (mt decide_eq_true second)
      omega

/-! ## The digits of a double -/

section Shortest

variable {x : Float} {m : ℕ} {e : ℤ} (reading : read x = .finite false m e) (positive : 0 < m)

include reading positive

/-- The logarithm of a double is within the reach of its guess. -/
theorem order_le : |log2Quotient (Quotient.ofDyadic m e).num (Quotient.ofDyadic m e).den| ≤ 2000 := by
  have canonical := canonical_read x
  have bounded := bounded_read x
  rw [reading] at canonical bounded
  obtain ⟨small, least, -⟩ := canonical
  have whole := Quotient.Positive.ofDyadic positive e
  obtain ⟨below, above⟩ := log2Quotient_bounds whole.num whole.den
  change _ ≤ (Quotient.ofDyadic m e).size at below
  change (Quotient.ofDyadic m e).size < _ at above
  rw [Quotient.size_ofDyadic] at below above
  have high := (zpow_lt_zpow_iff_right₀ (one_lt_two (α := ℝ))).1
    (below.trans_lt (magnitude_lt_limit small bounded))
  have unit : (2 : ℝ) ^ e ≤ m * 2 ^ e :=
    le_mul_of_one_le_left (two_zpow_pos e).le (by exact_mod_cast positive)
  have low := (zpow_lt_zpow_iff_right₀ (one_lt_two (α := ℝ))).1 (unit.trans_lt above)
  rw [abs_le]
  omega

/-- The neighbourhood is wider than a part in `10 ^ 16` of the double. -/
theorem share_lt : (m : ℝ) / 10 ^ (16 : ℤ) <
    (((Neighbourhood.of m e).high : ℝ) - (Neighbourhood.of m e).low) / 4 := by
  have canonical := canonical_read x
  rw [reading] at canonical
  obtain ⟨three, four⟩ := Neighbourhood.width_of positive e
  by_cases power : m = 2 ^ 52
  · have three' : ((Neighbourhood.of m e).low : ℝ) + 3 ≤ (Neighbourhood.of m e).high := by
      exact_mod_cast three
    have part : (m : ℝ) / 10 ^ (16 : ℤ) < 3 / 4 := by
      rw [power]
      norm_num
    linarith
  · have four' : ((Neighbourhood.of m e).low : ℝ) + 4 = (Neighbourhood.of m e).high := by
      exact_mod_cast four power
    have part : (m : ℝ) / 10 ^ (16 : ℤ) < 1 := by
      have small : (m : ℝ) < 2 ^ 53 := by exact_mod_cast canonical.1
      rw [div_lt_one (by positivity)]
      norm_num at small ⊢
      linarith
    linarith

/-- Seventeen digits are enough. -/
theorem exists_seventeenth : ∃ k : ℕ, (Neighbourhood.of m e).Holds (Quotient.ofDyadic 1 (e - 2)).size
    (k * 10 ^ ((Quotient.ofDyadic m e).log10 - 16)) := by
  have quarter_size := Quotient.size_ofDyadic 1 (e - 2)
  rw [Nat.cast_one, one_mul] at quarter_size
  have top := le_log10 (Quotient.Positive.ofDyadic positive e) (order_le reading positive)
  rw [Quotient.size_ofDyadic] at top
  refine exists_holds (.ofDyadic one_pos (e - 2)) ?_
  rw [zpow_sub₀ (by norm_num), quarter_size, zpow_sub₀ two_ne_zero]
  calc (10 : ℝ) ^ (Quotient.ofDyadic m e).log10 / 10 ^ (16 : ℤ)
      ≤ m * 2 ^ e / 10 ^ (16 : ℤ) := div_le_div_of_nonneg_right top (by positivity)
    _ = m / 10 ^ (16 : ℤ) * 2 ^ e := mul_div_right_comm _ _ _
    _ < _ := mul_lt_mul_of_pos_right (share_lt reading positive) (two_zpow_pos e)
    _ = _ := by
      norm_num
      ring

/-- **`shortest_holds`**: the shortest digits of a positive double are in its neighbourhood. -/
theorem shortest_holds (tie : Tie) :
    (Neighbourhood.of m e).Holds (2 ^ (e - 2)) (shortest tie m e).size := by
  obtain ⟨k, holds⟩ := exists_seventeenth reading positive
  have quarter := Quotient.size_ofDyadic 1 (e - 2)
  rw [Nat.cast_one, one_mul] at quarter
  rw [← quarter]
  exact (search_holds (Neighbourhood.around_of positive e) (.ofDyadic one_pos _) holds
    (by omega) (by omega)).1

/-- The shortest digits of a whole double are those of an integer. -/
theorem exponent_of_whole (tie : Tie) {k : ℕ} (at_ : (m : ℝ) * 2 ^ e = k) :
    0 ≤ (shortest tie m e).exponent := by
  have around := Neighbourhood.around_of positive e
  have quarter := Quotient.Positive.ofDyadic one_pos (e - 2)
  obtain ⟨j, holds⟩ := exists_seventeenth reading positive
  have top : 0 ≤ (Quotient.ofDyadic m e).log10 := by
    refine log10_nonneg (.ofDyadic positive e) ?_
    have pos : (0 : ℝ) < m * 2 ^ e := by positivity
    rw [at_] at pos
    rw [Quotient.size_ofDyadic, at_]
    exact_mod_cast pos
  rcases le_or_gt ((Quotient.ofDyadic m e).log10 - 16) 0 with within | beyond
  · -- The integer itself is on the grid of the integers.
    have itself : (Neighbourhood.of m e).Holds (Quotient.ofDyadic 1 (e - 2)).size
        (k * 10 ^ (0 : ℤ)) := by
      have value : (k : ℝ) * 10 ^ (0 : ℤ) =
          ((Neighbourhood.of m e).value : ℝ) * (Quotient.ofDyadic 1 (e - 2)).size := by
        rw [← at_, Quotient.size_ofDyadic, zpow_sub₀ two_ne_zero, Neighbourhood.of]
        push_cast
        norm_num
        ring
      rw [Neighbourhood.Holds, value]
      exact ⟨.inl (mul_lt_mul_of_pos_right (by exact_mod_cast around.low) quarter.size),
        .inl (mul_lt_mul_of_pos_right (by exact_mod_cast around.high) quarter.size)⟩
    exact (search_holds around quarter itself (by omega) top).2
  · exact beyond.le.trans (search_holds around quarter holds (by omega) (by omega)).2

end Shortest

end PrivateQuery.Decimal
