import PrivateQuery.Proofs.Binary64.Integral

/-!
# Squares at the upper end

The square of a double is finite exactly if the double is below `2 ^ 512` (`isFinite_square_iff`). The
square is rounded, so that dividing it by the double may give more than the double. Where not even
twice the square is finite this is still less than `2 ^ 512` (`square_div_le`), and the square of
the quotient is finite again.
-/
namespace PrivateQuery.Binary64

variable {x t : Float}

/-! ## Finite squares -/

/-- The square of the last double below `2 ^ 512` is below the last finite double. -/
theorem square_last_le :
    ((2 ^ 53 - 1) * 2 ^ (459 : ℤ)) ^ 2 ≤ (2 ^ 53 - 1) * (2 : ℝ) ^ (971 : ℤ) := by
  have units : (2 : ℝ) ^ (971 : ℤ) = 2 ^ 53 * (2 ^ (459 : ℤ)) ^ 2 := by
    rw [two_zpow_eq 53 (show (971 : ℤ) = 53 + 918 by norm_num), ← zpow_natCast, ← zpow_natCast,
      ← zpow_mul]
    norm_num
  rw [units]
  have pos : (0 : ℝ) < (2 ^ (459 : ℤ)) ^ 2 := by positivity
  rw [mul_pow]
  generalize ((2 : ℝ) ^ (459 : ℤ)) ^ 2 = unit at pos
  linarith

theorem grid_last : Grid ((2 ^ 53 - 1) * (2 : ℝ) ^ (971 : ℤ)) := by
  have less : ((2 ^ 53 - 1 : ℕ) : ℝ) * 2 ^ (971 : ℤ) < limit :=
    magnitude_lt_limit (by norm_num) le_rfl
  have grid := grid_mul_zpow (m := 2 ^ 53 - 1) (by norm_num) (by norm_num) less.le
  rwa [Nat.cast_sub Nat.one_le_two_pow, Nat.cast_pow, Nat.cast_ofNat, Nat.cast_one] at grid

theorem last_lt_limit : (2 ^ 53 - 1) * (2 : ℝ) ^ (971 : ℤ) < limit := by
  rw [limit_eq_mul]
  exact mul_lt_mul_of_pos_right (by norm_num) (two_zpow_pos 971)

/-- What is at most the last double below `2 ^ 512` has a finite square. -/
theorem isFinite_square_of_le {x : Float} (finite : IsFinite x)
    (le : |place x| ≤ (2 ^ 53 - 1) * 2 ^ (459 : ℤ)) : IsFinite (x * x) := by
  have square := rounds_mul finite finite
  rw [← sq] at square
  refine square.isNumber.isFinite ?_
  rw [abs_of_nonneg (square.nonneg (sq_nonneg _))]
  have below : place x ^ 2 ≤ (2 ^ 53 - 1) * 2 ^ (971 : ℤ) := by
    rw [← sq_abs]
    exact (pow_le_pow_left₀ (abs_nonneg _) le 2).trans square_last_le
  exact (square.le grid_last below).trans_lt last_lt_limit

theorem limit_eq_sq : limit = (2 ^ (512 : ℤ)) ^ 2 := by
  rw [limit, ← zpow_natCast, ← zpow_mul]
  norm_num

theorem isFinite_square_iff (finite : IsFinite x) (nonneg : 0 ≤ place x) :
    IsFinite (x * x) ↔ place x < 2 ^ (512 : ℤ) := by
  constructor
  · intro finite'
    by_contra! large
    have square := rounds_mul finite finite
    rw [← sq] at square
    have edge : limit ≤ place x ^ 2 := by
      rw [limit_eq_sq]
      exact pow_le_pow_left₀ (two_zpow_pos _).le large 2
    have less := finite'.abs_place_lt
    rw [square.eq_limit edge, abs_of_pos limit_pos] at less
    exact lt_irrefl _ less
  · intro small
    refine isFinite_square_of_le finite ?_
    rw [abs_of_nonneg nonneg]
    exact (grid_place x).le_last small

/-! ## Quotients of large squares -/

/-- A square whose double is infinite belongs to a double that is not far below `2 ^ 512`. -/
theorem large_of_double_infinite (finite : IsFinite x) (nonneg : 0 ≤ place x)
    (square : IsFinite (x * x)) (infinite : ¬ IsFinite (2 * (x * x))) :
    11 * 2 ^ (508 : ℤ) < place x := by
  by_contra! small
  have rounds := rounds_mul finite finite
  have double := rounds_mul isFinite_two square
  rw [place_two] at double
  have units : ((2 : ℝ) ^ (508 : ℤ)) ^ 2 = 2 ^ (1016 : ℤ) := by
    rw [← zpow_natCast, ← zpow_mul]
    norm_num
  have top : limit = 2 ^ 8 * 2 ^ (1016 : ℤ) := two_zpow_eq 8 (by norm_num)
  have pos := two_zpow_pos 1016
  have grid {m : ℕ} (few : m ≤ 242) : Grid (m * 2 ^ (1016 : ℤ)) := by
    refine grid_mul_zpow (by omega) (by norm_num) ?_
    rw [top]
    exact mul_le_mul_of_nonneg_right (by exact_mod_cast few.trans (by norm_num)) pos.le
  have below : place x * place x ≤ (121 : ℕ) * 2 ^ (1016 : ℤ) := by
    rw [← sq, ← units]
    calc place x ^ 2 ≤ (11 * 2 ^ (508 : ℤ)) ^ 2 := pow_le_pow_left₀ nonneg small 2
      _ = (121 : ℕ) * (2 ^ (508 : ℤ)) ^ 2 := by
          push_cast
          ring
  have square_le := rounds.le (grid (by norm_num)) below
  have double_le : place (2 * (x * x)) ≤ (242 : ℕ) * 2 ^ (1016 : ℤ) := by
    refine double.le (grid le_rfl) ?_
    push_cast at square_le ⊢
    linarith
  have nonneg' := double.nonneg (mul_nonneg zero_le_two (rounds.nonneg (mul_self_nonneg _)))
  refine infinite (double.isNumber.isFinite ?_)
  rw [abs_of_nonneg nonneg', top]
  exact double_le.trans_lt (mul_lt_mul_of_pos_right (by norm_num) pos)

/-- Where a square is rounded to, near `2 ^ 1024`: the double `2 ^ 513 * (x - 2 ^ 511)` is away from
the square by the square of what is missing to `2 ^ 512`. -/
theorem square_le (finite : IsFinite x) (low : 2 ^ (511 : ℤ) < place x)
    (high : place x ≤ 2 ^ (512 : ℤ)) :
    place (x * x) ≤ place x ^ 2 + (2 ^ (512 : ℤ) - place x) ^ 2 := by
  have square := rounds_mul finite finite
  have unit := two_zpow_pos 459
  have low' : (2 : ℝ) ^ (511 : ℤ) = 2 ^ 52 * 2 ^ (459 : ℤ) := two_zpow_eq 52 (by norm_num)
  have high' : (2 : ℝ) ^ (512 : ℤ) = 2 ^ 53 * 2 ^ (459 : ℤ) := two_zpow_eq 53 (by norm_num)
  have step : (2 : ℝ) ^ (972 : ℤ) = 2 ^ 54 * (2 ^ (459 : ℤ)) ^ 2 := by
    rw [two_zpow_eq 54 (show (972 : ℤ) = 54 + 918 by norm_num), ← zpow_natCast (2 ^ (459 : ℤ)),
      ← zpow_mul]
    norm_num
  obtain ⟨k, same⟩ := ((grid_place x).multiple_or_le 459).resolve_right (not_le.2 (low' ▸ low))
  rw [low', same] at low
  rw [high', same] at high
  have least : 2 ^ 52 < k := by exact_mod_cast lt_of_mul_lt_mul_right low unit.le
  have most : k ≤ 2 ^ 53 := by exact_mod_cast le_of_mul_le_mul_right high unit
  obtain ⟨j, rfl⟩ : ∃ j : ℕ, k = 2 ^ 52 + j := ⟨(k - 2 ^ 52).toNat, by omega⟩
  have few : j ≤ 2 ^ 52 := by omega
  have grid : Grid (j * 2 ^ (972 : ℤ)) := by
    refine grid_mul_zpow (by omega) (by norm_num) ?_
    rw [limit_eq]
    exact mul_le_mul_of_nonneg_right (by exact_mod_cast few) (two_zpow_pos 972).le
  have away : (j : ℝ) * 2 ^ (972 : ℤ) - place x * place x = -(2 ^ (512 : ℤ) - place x) ^ 2 := by
    rw [step, high', same]
    push_cast
    ring
  have near := square.nearest _ grid
  rw [away, abs_neg, abs_of_nonneg (sq_nonneg (2 ^ (512 : ℤ) - place x))] at near
  linarith [(abs_le.1 near).2]

/-- So the quotient exceeds the double by less than what is missing to `2 ^ 512`. -/
theorem quotient_lt {u s v : ℝ} (pos : 0 < u) (large : 11 * 2 ^ 50 * u < s)
    (last : s ≤ (2 ^ 54 - 2) * u) (le : v ≤ s ^ 2 + (2 ^ 54 * u - s) ^ 2) :
    v / s < (2 ^ 54 - 1) * u := by
  have positive : 0 < s := by nlinarith
  rw [div_lt_iff₀ positive]
  obtain ⟨d, rfl⟩ : ∃ d, s = 2 ^ 54 * u - d := ⟨2 ^ 54 * u - s, by ring⟩
  have least : 2 * u ≤ d := by linarith
  have half : 2 * d < 2 ^ 54 * u - d := by linarith
  have rest := mul_le_mul_of_nonneg_right least (by linarith : 0 ≤ 2 ^ 54 * u - d - d)
  have unit := mul_lt_mul_of_pos_left half pos
  nlinarith

/-- What is below `2 ^ 512` by more than a quarter of a step is rounded to a double below it. -/
theorem Rounds.lt_of_quarter {q : ℝ} {y : Float} (h : Rounds q y)
    (less : q < (2 ^ 54 - 1) * 2 ^ (458 : ℤ)) : place y < 2 ^ (512 : ℤ) := by
  have grid : Grid ((2 ^ 53 - 1 : ℕ) * 2 ^ (459 : ℤ)) := by
    refine grid_mul_zpow (by norm_num) (by norm_num) (le_trans ?_ last_lt_limit.le)
    rw [Nat.cast_sub Nat.one_le_two_pow, Nat.cast_pow, Nat.cast_ofNat, Nat.cast_one]
    refine mul_le_mul_of_nonneg_left ?_ (by norm_num)
    exact zpow_le_zpow_right₀ (by norm_num) (by norm_num)
  have near := h.nearest _ grid
  rw [two_zpow_eq 1 (show (459 : ℤ) = 1 + 458 by norm_num), Nat.cast_sub Nat.one_le_two_pow,
    Nat.cast_pow, Nat.cast_ofNat, Nat.cast_one] at near
  by_contra! more
  rw [two_zpow_eq 54 (show (512 : ℤ) = 54 + 458 by norm_num)] at more
  have pos := two_zpow_pos 458
  generalize (2 : ℝ) ^ (458 : ℤ) = unit at near less more pos
  have far := (abs_le.1 near).2
  rcases abs_cases ((2 ^ 53 - 1) * (2 ^ 1 * unit) - q) with ⟨same, -⟩ | ⟨same, -⟩
  · rw [same] at far
    linarith
  · rw [same] at far
    linarith

/-- **`square_div_le`**: where twice the square of a double is infinite and the square is not, the
square divided by what is not below the double is at most the last double below `2 ^ 512`. -/
theorem square_div_le (finite : IsFinite x) (nonneg : 0 ≤ place x) (square : IsFinite (x * x))
    (infinite : ¬ IsFinite (2 * (x * x))) (divisor : IsFinite t) (above : place x ≤ place t) :
    place (x * x / t) ≤ (2 ^ 53 - 1) * 2 ^ (459 : ℤ) := by
  have large := large_of_double_infinite finite nonneg square infinite
  have small := (isFinite_square_iff finite nonneg).1 square
  have last : place x ≤ (2 ^ 53 - 1) * 2 ^ (459 : ℤ) := (grid_place x).le_last small
  have positive : 0 < place x := lt_trans (by positivity) large
  have quotient := rounds_div square divisor (positive.trans_le above).ne'
  refine (grid_place _).le_last (quotient.lt_of_quarter ?_)
  have low : (2 : ℝ) ^ (511 : ℤ) ≤ 11 * 2 ^ (508 : ℤ) := by
    rw [two_zpow_eq 3 (show (511 : ℤ) = 3 + 508 by norm_num)]
    exact mul_le_mul_of_nonneg_right (by norm_num) (two_zpow_pos 508).le
  have le := square_le finite (low.trans_lt large) small.le
  rw [two_zpow_eq 50 (show (508 : ℤ) = 50 + 458 by norm_num), ← mul_assoc] at large
  rw [two_zpow_eq 54 (show (512 : ℤ) = 54 + 458 by norm_num)] at le
  rw [two_zpow_eq 1 (show (459 : ℤ) = 1 + 458 by norm_num), ← mul_assoc] at last
  have wider : place (x * x) / place t ≤ place (x * x) / place x := by
    refine div_le_div_of_nonneg_left ?_ positive above
    exact (rounds_mul finite finite).nonneg (mul_self_nonneg _)
  refine wider.trans_lt (quotient_lt (two_zpow_pos 458) large (last.trans_eq ?_) le)
  ring

end PrivateQuery.Binary64
