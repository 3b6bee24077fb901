import PrivateQuery.Proofs.Binary64.Integral

/-!
# Logarithms on both sides of one

No finite double has a large logarithm (`ln_le`). Between `2 ^ -53` and `77 / 1024` the logarithm is
between `-64` and `-41 / 16` (`ln_of_small`), as is needed of the tails of a distribution.
-/
namespace PrivateQuery.Binary64

theorem ln_le {x : Float} (finite : IsFinite x) : place (ln x) ≤ 2 ^ 10 := by
  obtain ⟨negative, s, e, reading⟩ := finite
  have none : (Reading.nan).place ≤ 2 ^ 10 := by simp [Reading.place]
  rcases Nat.eq_zero_or_pos s with rfl | pos
  · -- The logarithm of zero is minus infinity.
    have closed : read (-infinity) = .infinite true := by decide +kernel
    have top := limit_pos
    rw [place, ln, reading]
    simp only [beq_self_eq_true, if_true, closed, Reading.place, signum_true]
    linarith
  · cases negative with
    | true =>
      have closed : read nan = .nan := by decide +kernel
      rw [place, ln, reading]
      simpa [pos.ne', closed] using none
    | false =>
      have bounded := bounded_read x
      have canonical := canonical_read x
      rw [reading] at bounded canonical
      have top : s.log2 < 53 := (Nat.log2_lt pos.ne').2 canonical.1
      have last : e ≤ 971 := bounded
      obtain ⟨l, value, -, high, -⟩ := ln_eq_nearest reading pos top
      have ln2 : (0 : ℤ) ≤ fixedLn2 ∧ (fixedLn2 : ℤ) ≤ fixedOne := by decide
      have most : l ≤ 1024 * fixedOne := by nlinarith
      have unit : (0 : ℝ) < fixedOne := by
        rw [fixedOne_eq]
        positivity
      refine (rounds_fixed value).le ?_ ?_
      · exact_mod_cast grid_zpow (k := 10) (by norm_num) (by norm_num)
      · rw [div_le_iff₀ unit]
        exact_mod_cast most

/-- Up to six fifths and a bit the fixed-point logarithm is less than a quarter of one. -/
theorem fixedLn_of_near {y : ℕ} (low : fixedOne ≤ y) (high : 1024 * y ≤ 1232 * fixedOne) :
    1000 * fixedLn y ≤ 208 * fixedOne := by
  have argument := argument_le (y := y) (d := fixedOne * 208 / 1024) (s := 2 * fixedOne)
    (z := fixedOne * 104 / 1024) (by rw [fixedOne_eq] at *; omega) (by omega) (by decide)
  have size := natAbs_fixedLn_le (c := fixedOne + fixedOne / 50) (by decide) argument
  have most : 1000 * (2 * fixedMul (fixedOne * 104 / 1024) (fixedOne + fixedOne / 50)) ≤
      208 * fixedOne := by decide
  omega

/-- What lies over the fourth power of a half and is at most `77 / 1024` is aligned below `77 / 64`. -/
theorem aligned_le {x : Float} {s : ℕ} {e : ℤ} (reading : read x = .finite false s e)
    (top : s.log2 < 53) (order : e + s.log2 = -4) (most : place x ≤ 77 / 1024) :
    1024 * (s <<< (fixedBits - s.log2)) ≤ 1232 * fixedOne := by
  have size : (s : ℝ) * 2 ^ e ≤ 77 / 1024 := by
    rwa [place, reading, Reading.place, signum_false, one_mul] at most
  have moved : ((s <<< (fixedBits - s.log2) : ℕ) : ℝ) = s * 2 ^ e * 2 ^ (164 : ℤ) := by
    rw [Nat.shiftLeft_eq, Nat.cast_mul, Nat.cast_pow, Nat.cast_ofNat, mul_assoc, ← zpow_natCast,
      ← zpow_add₀ (by norm_num)]
    congr 2
    simp only [fixedBits]
    omega
  have wide : (1024 : ℝ) * (s <<< (fixedBits - s.log2) : ℕ) ≤ 1232 * (fixedOne : ℕ) := by
    rw [moved, fixedOne_eq]
    push_cast
    have unit : (2 : ℝ) ^ (164 : ℤ) = 16 * 2 ^ 160 := by norm_num
    rw [unit]
    nlinarith [show (0 : ℝ) < 2 ^ 160 by positivity]
  exact_mod_cast wide

/-- **`ln_of_small`**: the logarithm of what is small, but not below the last bit under one. -/
theorem ln_of_small {x : Float} (finite : IsFinite x) (least : 2 ^ (-53 : ℤ) ≤ place x)
    (most : place x ≤ 77 / 1024) :
    IsFinite (ln x) ∧ -64 ≤ place (ln x) ∧ place (ln x) ≤ -41 / 16 := by
  obtain ⟨s, e, reading, pos, top, -⟩ := read_of_pos finite ((two_zpow_pos _).trans_le least)
  obtain ⟨l, value, low, high, near⟩ := ln_eq_nearest reading pos top
  obtain ⟨below, above⟩ := place_bits reading pos
  have order : -53 ≤ e + s.log2 := by
    have := (zpow_lt_zpow_iff_right₀ (by norm_num)).1 (least.trans_lt above)
    omega
  have order' : e + s.log2 ≤ -4 := by
    have less : (2 : ℝ) ^ (e + s.log2) < 2 ^ (-3 : ℤ) :=
      below.trans_lt (most.trans_lt (by norm_num))
    have := (zpow_lt_zpow_iff_right₀ (by norm_num)).1 less
    omega
  have ln2 : (0 : ℤ) ≤ fixedLn2 ∧ (fixedLn2 : ℤ) ≤ fixedOne ∧
      693 * (fixedOne : ℤ) ≤ 1000 * fixedLn2 := by decide
  have lower : -53 * (fixedOne : ℤ) ≤ l := by nlinarith
  have upper : 16 * l ≤ -41 * fixedOne := by
    rcases order'.lt_or_eq with less | same
    · have : (e + s.log2 + 1) * fixedLn2 ≤ -4 * fixedLn2 :=
        mul_le_mul_of_nonneg_right (by omega) ln2.1
      omega
    · -- At the fourth power of a half there is room up to `77 / 64`.
      obtain ⟨aligned, -⟩ := aligned_bounds pos (show s.log2 ≤ fixedBits by simp [fixedBits]; omega)
      have within := aligned_le reading top same most
      have rest := fixedLn_of_near aligned within
      rw [near (by omega), same]
      omega
  have unit : (0 : ℝ) < fixedOne := by
    rw [fixedOne_eq]
    positivity
  have rounds := rounds_fixed value
  have grid : Grid (-64) := by
    have grid := (grid_natCast (n := 64) (by norm_num)).neg
    exact_mod_cast grid
  have top : (64 : ℝ) < limit := by
    have less : (2 : ℝ) ^ 6 < 2 ^ 1024 := pow_lt_pow_right₀ one_lt_two (by norm_num)
    rw [limit_eq_pow]
    exact lt_of_eq_of_lt (by norm_num) less
  have grid' : Grid (-41 / 16) := by
    have grid := (grid_mul_zpow (m := 41) (e := -4) (by norm_num) (by norm_num)
      (le_trans (by norm_num) top.le)).neg
    convert grid using 1
    norm_num
  have at_least : -64 ≤ place (ln x) := by
    refine rounds.ge grid ?_
    rw [le_div_iff₀ unit]
    have : -64 * (fixedOne : ℤ) ≤ l := by omega
    exact_mod_cast this
  have at_most : place (ln x) ≤ -41 / 16 := by
    refine rounds.le grid' ?_
    rw [div_le_div_iff₀ unit (by norm_num), mul_comm]
    exact_mod_cast upper
  refine ⟨rounds.isNumber.isFinite ?_, at_least, at_most⟩
  rw [abs_lt]
  constructor <;> linarith

end PrivateQuery.Binary64
