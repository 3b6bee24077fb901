import PrivateQuery.Binary64.Integral
import PrivateQuery.Proofs.Binary64.Arithmetic
import PrivateQuery.Proofs.Binary64.Nearest

/-!
# Integral parts

The floor of a finite double that is not negative is finite and less than one below it
(`floor_bounds`). The next integer, which may have to be rounded, is finite too, at least one and not
below the double (`floor_add_one_bounds`). The ceiling of a number that is not negative is finite
exactly if the number is (`ceil_bounds`).
-/
namespace PrivateQuery.Binary64

/-! ## Ends of the grid -/

theorem two_zpow_eq (n : ℕ) {k e : ℤ} (sum : k = n + e) : (2 : ℝ) ^ k = 2 ^ n * 2 ^ e := by
  rw [sum, zpow_add₀ (by norm_num), zpow_natCast]

/-- A point of the grid is a multiple of a power of two or has room for one bit less. -/
theorem Grid.multiple_or_le {g : ℝ} (h : Grid g) (t : ℤ) :
    (∃ k : ℤ, g = k * 2 ^ t) ∨ g ≤ 2 ^ 52 * 2 ^ t := by
  obtain ⟨m, e, small, -, rfl, -⟩ := h
  rcases le_or_gt t e with above | below
  · obtain ⟨j, rfl⟩ : ∃ j : ℕ, e = j + t := ⟨(e - t).toNat, by omega⟩
    refine .inl ⟨m * 2 ^ j, ?_⟩
    rw [two_zpow_eq j rfl]
    push_cast
    ring
  · right
    have few : (m : ℝ) ≤ 2 ^ 53 := by exact_mod_cast (abs_le.1 small).2
    calc (m : ℝ) * 2 ^ e ≤ 2 ^ 53 * 2 ^ (t - 1) := by
          refine mul_le_mul few ?_ (two_zpow_pos e).le (by norm_num)
          exact zpow_le_zpow_right₀ (by norm_num) (by omega)
      _ = 2 ^ 52 * 2 ^ t := by
          rw [zpow_sub_one₀ (by norm_num)]
          ring

/-- A point of the grid below a power of two is at most the last one with 53 bits. -/
theorem Grid.le_last {g : ℝ} (h : Grid g) {k : ℤ} (less : g < 2 ^ k) :
    g ≤ (2 ^ 53 - 1) * 2 ^ (k - 53) := by
  have unit := two_zpow_pos (k - 53)
  rcases h.multiple_or_le (k - 53) with ⟨m, rfl⟩ | le
  · rw [two_zpow_eq 53 (show k = 53 + (k - 53) by ring), mul_lt_mul_iff_left₀ unit] at less
    have few : m < 2 ^ 53 := by exact_mod_cast less
    have most : m ≤ 2 ^ 53 - 1 := by omega
    exact mul_le_mul_of_nonneg_right (by exact_mod_cast most) unit.le
  · exact le.trans (mul_le_mul_of_nonneg_right (by norm_num) unit.le)

theorem limit_eq_mul : limit = 2 ^ 53 * 2 ^ (971 : ℤ) := two_zpow_eq 53 (by norm_num)

theorem IsFinite.place_le {x : Float} (h : IsFinite x) : place x ≤ (2 ^ 53 - 1) * 2 ^ (971 : ℤ) :=
  (grid_place x).le_last h.place_lt

theorem isFinite_add_one {x : Float} (h : IsFinite x) (nonneg : 0 ≤ place x) :
    IsFinite (x + 1) := by
  have sum := rounds_add h isFinite_one
  rw [place_one] at sum
  refine sum.isNumber.isFinite ?_
  rw [abs_of_nonneg (sum.nonneg (by linarith))]
  -- The double itself is one away, so the rounded sum is at most two above it.
  have near := sum.nearest _ (grid_place x)
  rw [sub_add_cancel_left, abs_neg, abs_one] at near
  have last := h.place_le
  have room : (2 ^ 53 - 1) * 2 ^ (971 : ℤ) + 2 < limit := by
    have wide : (2 : ℝ) ^ (2 : ℤ) ≤ 2 ^ (971 : ℤ) := zpow_le_zpow_right₀ (by norm_num) (by norm_num)
    rw [limit_eq_mul]
    generalize (2 : ℝ) ^ (971 : ℤ) = unit at wide
    linarith
  linarith [(abs_le.1 near).2]

/-! ## Floors -/

theorem ofNat_of_small {n : ℕ} (few : n ≤ 2 ^ 53) : IsFinite (ofNat n) ∧ place (ofNat n) = n := by
  have rounds := rounds_ofNat n
  have small {k : ℤ} (more : 53 ≤ k) : (n : ℝ) ≤ 2 ^ k := by
    have few' : (n : ℝ) ≤ 2 ^ (53 : ℤ) := by exact_mod_cast few
    exact few'.trans (zpow_le_zpow_right₀ (by norm_num) more)
  have grid : Grid (n : ℝ) := by
    have bounded : (n : ℝ) * 2 ^ (0 : ℤ) ≤ limit := by
      rw [zpow_zero, mul_one]
      exact small (by norm_num)
    simpa using grid_mul_zpow few (by norm_num) bounded
  exact ⟨rounds.isFinite (by positivity) (small (by norm_num)), rounds.eq grid⟩

theorem grid_natCast {n : ℕ} (few : n ≤ 2 ^ 53) : Grid n :=
  (ofNat_of_small few).2 ▸ grid_place (ofNat n)

theorem Rounds.upto {q : ℝ} {x : Float} {n : ℕ} (h : Rounds q x) (nonneg : 0 ≤ q) (le : q ≤ n)
    (few : n ≤ 2 ^ 53) : IsFinite x ∧ 0 ≤ place x ∧ place x ≤ n := by
  obtain ⟨finite, exact⟩ := ofNat_of_small few
  have low := h.nonneg nonneg
  have high := h.le (grid_natCast few) le
  exact ⟨h.isNumber.isFinite_of_le low (high.trans_eq exact.symm) finite, low, high⟩

/-- The whole part of a dyadic number is less than one below it. -/
theorem whole_bounds (significand : ℕ) (exponent : ℤ) : ∃ whole : ℕ,
    whole = (if 0 ≤ exponent then significand * 2 ^ exponent.toNat
      else significand / 2 ^ (-exponent).toNat) ∧
      (whole : ℝ) ≤ significand * 2 ^ exponent ∧
      (significand : ℝ) * 2 ^ exponent < whole + 1 := by
  refine ⟨_, rfl, ?_⟩
  split_ifs with integral
  · obtain ⟨k, rfl⟩ := Int.eq_ofNat_of_zero_le integral
    rw [Int.toNat_natCast, zpow_natCast]
    push_cast
    exact ⟨le_rfl, lt_add_one _⟩
  · obtain ⟨k, rfl⟩ : ∃ k : ℕ, exponent = -k := ⟨(-exponent).toNat, by omega⟩
    have pos : (0 : ℝ) < 2 ^ k := by positivity
    rw [neg_neg, Int.toNat_natCast, zpow_neg, zpow_natCast, ← div_eq_mul_inv, le_div_iff₀ pos,
      div_lt_iff₀ pos]
    constructor
    · exact_mod_cast Nat.div_mul_le_self _ _
    · exact_mod_cast Nat.lt_mul_of_div_lt (Nat.lt_succ_self _) (by positivity)

theorem natAbs_truncate {x : Float} (h : IsFinite x) :
    ((truncate x).natAbs : ℝ) ≤ |place x| ∧ |place x| < (truncate x).natAbs + 1 := by
  obtain ⟨negative, s, e, reading⟩ := h
  obtain ⟨whole, same, least, most⟩ := whole_bounds s e
  have part : (truncate x).natAbs = whole := by
    simp only [truncate, reading, Nat.pow_eq, ← same]
    cases negative <;> simp
  rw [part, abs_place_of_read reading]
  exact ⟨least, most⟩

theorem isWhole_iff {x : Float} {negative : Bool} {s : ℕ} {e : ℤ}
    (reading : read x = .finite negative s e) :
    isWhole x = true ↔ 0 ≤ e ∨ s % 2 ^ (-e).toNat = 0 := by
  simp [isWhole, reading, Nat.pow_eq]

/-- What is not an integer and not negative is between two integers, its floor and its ceiling. -/
theorem floor_ceil_of_part {x : Float} (h : IsFinite x) (nonneg : 0 ≤ place x)
    (part : ¬ isWhole x = true) : ∃ n : ℕ, n < 2 ^ 52 ∧ place x < n + 1 ∧
      floor x = ofNat n ∧ ceil x = ofNat (n + 1) := by
  have above := (natAbs_truncate h).2
  obtain ⟨negative, s, e, reading⟩ := h
  have canonical := canonical_read x
  rw [reading] at canonical
  have parts : ¬ (0 ≤ e ∨ s % 2 ^ (-e).toNat = 0) := fun h => part ((isWhole_iff reading).2 h)
  obtain ⟨k, rfl⟩ : ∃ k : ℕ, e = -k := ⟨(-e).toNat, by omega⟩
  have below : k ≠ 0 := by omega
  have some : 0 < s := by
    rcases Nat.eq_zero_or_pos s with rfl | pos
    · simp at parts
    · exact pos
  have sign : negative = false := by
    cases negative with
    | false => rfl
    | true =>
      have pos : (0 : ℝ) < s * 2 ^ (-k : ℤ) := by positivity
      rw [place, reading, Reading.place, signum_true] at nonneg
      linarith
  subst sign
  have cut : truncate x = (s / 2 ^ k : ℕ) := by
    simp [truncate, reading, below, Nat.pow_eq]
  rw [cut, Int.natAbs_natCast, abs_of_nonneg nonneg] at above
  have positive : ¬ (((s / 2 ^ k : ℕ) : ℤ) < 0) := not_lt.2 (Int.natCast_nonneg _)
  have positive' : ¬ (((s / 2 ^ k : ℕ) : ℤ) + 1 < 0) := by omega
  have few : s / 2 ^ k < 2 ^ 52 := by
    rw [Nat.div_lt_iff_lt_mul (by positivity)]
    have half : 2 ^ 1 ≤ 2 ^ k := Nat.pow_le_pow_right (by norm_num) (by omega)
    have top : s < 2 ^ 53 := canonical.1
    omega
  refine ⟨s / 2 ^ k, few, above, ?_, ?_⟩
  · simp only [floor, reading, part, Bool.false_eq_true, if_false, cut, ofInt, positive,
      Int.natAbs_natCast, decide_false, ofNat]
  · have next : (((s / 2 ^ k : ℕ) : ℤ) + 1).natAbs = s / 2 ^ k + 1 := by omega
    simp only [ceil, reading, part, Bool.false_eq_true, if_false, cut, ofInt, positive', next,
      decide_false, ofNat]

theorem floor_bounds {x : Float} (h : IsFinite x) (nonneg : 0 ≤ place x) :
    IsFinite (floor x) ∧ 0 ≤ place (floor x) ∧ place x ≤ place (floor x) + 1 := by
  by_cases whole : isWhole x = true
  · have same : floor x = x := by
      obtain ⟨negative, s, e, reading⟩ := h
      simp [floor, reading, whole]
    rw [same]
    exact ⟨h, nonneg, by linarith⟩
  · obtain ⟨n, few, above, value, -⟩ := floor_ceil_of_part h nonneg whole
    obtain ⟨finite, exact⟩ := ofNat_of_small (n := n) (by omega)
    rw [value, exact]
    exact ⟨finite, by positivity, above.le⟩

theorem ceil_bounds {x : Float} (number : IsNumber x) (nonneg : 0 ≤ place x) :
    IsNumber (ceil x) ∧ 0 ≤ place (ceil x) ∧ (IsFinite (ceil x) ↔ IsFinite x) := by
  by_cases part : IsFinite x ∧ ¬ isWhole x = true
  · obtain ⟨finite, part⟩ := part
    obtain ⟨n, few, -, -, value⟩ := floor_ceil_of_part finite nonneg part
    obtain ⟨finite', exact⟩ := ofNat_of_small (n := n + 1) (by omega)
    rw [value, exact]
    exact ⟨finite'.isNumber, by positivity, iff_of_true finite' finite⟩
  · have same : ceil x = x := by
      unfold ceil
      split
      · rename_i negative s e reading
        rw [if_pos (not_not.1 fun h => part ⟨⟨negative, s, e, reading⟩, h⟩)]
      · rfl
    rw [same]
    exact ⟨number, nonneg, Iff.rfl⟩

theorem floor_add_one_bounds {x : Float} (h : IsFinite x) (nonneg : 0 ≤ place x) :
    IsFinite (floor x + 1) ∧ 1 ≤ place (floor x + 1) ∧ place x ≤ place (floor x + 1) := by
  obtain ⟨finite, nonneg', above⟩ := floor_bounds h nonneg
  have sum := rounds_add finite isFinite_one
  rw [place_one] at sum
  exact ⟨isFinite_add_one finite nonneg', sum.ge grid_one (by linarith), sum.ge (grid_place x) above⟩

end PrivateQuery.Binary64
