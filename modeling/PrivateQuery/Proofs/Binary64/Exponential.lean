import PrivateQuery.Proofs.Binary64.Integral

/-!
# Exponentials of what is not positive

The fixed-point series grow with their arguments, and below `ln 2` their sum is at most two. So the
exponential of a double that is not positive is between zero and one (`exp_bounds`). It is one at zero
(`exp_of_zero`), and far from zero it is tiny (`exp_tiny`).
-/
namespace PrivateQuery.Binary64

/-! ## Series -/

theorem expSeries_mono {s s' : ℕ} (h : s ≤ s') (terms first : ℕ) :
    expSeries s terms first ≤ expSeries s' terms first := by
  induction terms generalizing first with
  | zero => exact le_rfl
  | succ terms ih =>
    exact Nat.add_le_add_left (Nat.div_le_div_right (fixedMul_mono h (ih (first + 1)))) _

theorem squareTimes_mono {a a' : ℕ} (h : a ≤ a') (n : ℕ) : squareTimes n a ≤ squareTimes n a' := by
  induction n generalizing a a' with
  | zero => exact h
  | succ n ih => exact ih (fixedMul_mono h h)

theorem fixedExp_mono {r r' : ℕ} (h : r ≤ r') : fixedExp r ≤ fixedExp r' := by
  refine squareTimes_mono (expSeries_mono ?_ 12 1) 12
  rw [Nat.shiftRight_eq_div_pow, Nat.shiftRight_eq_div_pow]
  exact Nat.div_le_div_right h

theorem fixedExp_zero : fixedExp 0 = fixedOne := by decide +kernel

theorem fixedExp_ln2 : fixedExp fixedLn2 ≤ 2 * fixedOne := by decide +kernel

/-! ## Doubles -/

theorem rounds_ofDyadic (negative : Bool) (significand : ℕ) (exponent : ℤ) :
    Rounds (signum negative * (significand * 2 ^ exponent))
      (ofDyadic negative significand exponent) := by
  unfold ofDyadic
  split
  · rename_i whole
    obtain ⟨k, rfl⟩ := Int.eq_ofNat_of_zero_le whole
    have rounds := rounds_nearest one_pos negative (significand * 2 ^ k)
    simpa [Nat.pow_eq] using rounds
  · rename_i part
    obtain ⟨k, same⟩ := Int.eq_ofNat_of_zero_le (show 0 ≤ -exponent by omega)
    obtain rfl : exponent = -k := by omega
    have rounds := rounds_nearest (show 0 < 2 ^ k by positivity) negative significand
    simpa [Nat.pow_eq, div_eq_mul_inv] using rounds

theorem fixedOne_cast : (fixedOne : ℝ) = 2 ^ (160 : ℤ) := by
  rw [fixedOne_eq]
  norm_num

/-- A sum of the series below `ln 2`, times two to a whole number of times `ln 2`. -/
theorem scaled_exp_le_zpow {t k : ℤ} (whole : t / fixedLn2 ≤ k) :
    (fixedExp (t % fixedLn2).toNat : ℝ) * 2 ^ (t / fixedLn2 - fixedBits) ≤ 2 ^ (k + 1) := by
  have below : (t % fixedLn2).toNat ≤ fixedLn2 := by
    have := Int.emod_lt_of_pos t (show (0 : ℤ) < fixedLn2 by decide)
    omega
  have sum : (fixedExp (t % fixedLn2).toNat : ℝ) ≤ 2 * 2 ^ (160 : ℤ) := by
    rw [← fixedOne_cast]
    exact_mod_cast (fixedExp_mono below).trans fixedExp_ln2
  calc (fixedExp (t % fixedLn2).toNat : ℝ) * 2 ^ (t / fixedLn2 - fixedBits)
      ≤ 2 * 2 ^ (160 : ℤ) * 2 ^ (k - fixedBits) := by
        refine mul_le_mul sum ?_ (by positivity) (by positivity)
        exact zpow_le_zpow_right₀ (by norm_num) (by omega)
    _ = 2 ^ (k + 1) := by
        rw [← zpow_one_add₀ (by norm_num), ← zpow_add₀ (by norm_num)]
        congr 1
        simp only [fixedBits]
        omega

theorem scaled_exp_zero :
    (fixedExp ((0 : ℤ) % fixedLn2).toNat : ℝ) * 2 ^ ((0 : ℤ) / fixedLn2 - fixedBits) = 1 := by
  rw [Int.zero_emod, Int.zero_ediv, Int.toNat_zero, fixedExp_zero, fixedOne_cast]
  norm_num [fixedBits]

/-- Two to no positive power times a sum of the series below `ln 2` is at most one. -/
theorem scaled_exp_le {t : ℤ} (nonpos : t ≤ 0) :
    (fixedExp (t % fixedLn2).toNat : ℝ) * 2 ^ (t / fixedLn2 - fixedBits) ≤ 1 := by
  rcases nonpos.lt_or_eq with less | rfl
  · have whole : t / fixedLn2 ≤ -1 := by
      have := Int.ediv_neg_of_neg_of_pos less (show (0 : ℤ) < fixedLn2 by decide)
      omega
    simpa using scaled_exp_le_zpow whole
  · exact scaled_exp_zero.le

theorem not_lt_of_nonpos {x : Float} (nonpos : place x ≤ 0) : ¬ 710 < x := by
  intro more
  obtain ⟨-, -, above⟩ := lt_iff.1 more
  obtain ⟨-, -, bound⟩ := le_iff.1 (show (0 : Float) ≤ 710 by decide +kernel)
  rw [place_zero] at bound
  linarith

/-- From `-746` to zero the exponential is rounded from that of the argument in fixed point, which is
cut toward zero. -/
theorem exp_rounds {x : Float} (finite : IsFinite x) (nonpos : place x ≤ 0) (low : ¬ x < -746) :
    ∃ t : ℤ, t ≤ 0 ∧ place x * 2 ^ (160 : ℤ) ≤ t ∧ (t : ℝ) < place x * 2 ^ (160 : ℤ) + 1 ∧
      Rounds (fixedExp (t % fixedLn2).toNat * 2 ^ (t / fixedLn2 - fixedBits)) (exp x) := by
  obtain ⟨negative, significand, exponent, reading⟩ := finite
  obtain ⟨magnitude, same, least, most⟩ := whole_bounds significand (exponent + fixedBits)
  have value : exp x = ofDyadic false
      (fixedExp ((if negative then -(magnitude : ℤ) else magnitude) % fixedLn2).toNat)
      ((if negative then -(magnitude : ℤ) else magnitude) / fixedLn2 - fixedBits) := by
    unfold exp
    rw [reading]
    dsimp only
    rw [if_neg (not_lt_of_nonpos nonpos), if_neg low, Nat.shiftLeft_eq, Nat.shiftRight_eq_div_pow,
      ← same]
  have size : (significand : ℝ) * 2 ^ (exponent + fixedBits) =
      significand * 2 ^ exponent * 2 ^ (160 : ℤ) := by
    rw [zpow_add₀ (by norm_num), mul_assoc]
    rfl
  have nonneg : (0 : ℝ) ≤ significand * 2 ^ exponent := by positivity
  rw [size] at least most
  rw [place, reading, Reading.place] at nonpos ⊢
  have rounds (t : ℤ) := rounds_ofDyadic false (fixedExp (t % fixedLn2).toNat)
    (t / fixedLn2 - fixedBits)
  simp only [signum_false, one_mul] at rounds
  rw [value]
  cases negative with
  | true =>
    refine ⟨_, by simp, ?_, ?_, rounds _⟩
    · simp only [signum_true, if_true, Int.cast_neg, Int.cast_natCast]
      linarith
    · simp only [signum_true, if_true, Int.cast_neg, Int.cast_natCast]
      linarith
  | false =>
    rw [signum_false, one_mul] at nonpos ⊢
    have zero := le_antisymm nonpos nonneg
    rw [zero, zero_mul] at least most ⊢
    obtain rfl : magnitude = 0 := by exact_mod_cast le_antisymm least (Nat.cast_nonneg _)
    exact ⟨_, by simp, by simp, by simp, rounds _⟩

theorem exp_nonneg {x : Float} (number : IsNumber x) : IsNumber (exp x) ∧ 0 ≤ place (exp x) := by
  have top : IsNumber infinity ∧ 0 ≤ place infinity := by
    obtain ⟨number, placed⟩ := place_infinite (show read infinity = .infinite false by decide +kernel)
    exact ⟨number, placed ▸ limit_pos.le⟩
  have none : IsNumber 0 ∧ 0 ≤ place 0 := ⟨isFinite_zero.isNumber, place_zero.ge⟩
  cases reading : read x with
  | nan => exact absurd reading number
  | infinite negative =>
    rw [exp, reading]
    cases negative
    · exact top
    · exact none
  | finite negative significand exponent =>
    simp only [exp, reading]
    split_ifs
    · exact top
    · exact none
    all_goals
      have rounds := rounds_ofDyadic false
      simp only [signum_false, one_mul] at rounds
      exact ⟨(rounds _ _).isNumber, (rounds _ _).nonneg (by positivity)⟩

theorem exp_of_nan {x : Float} (h : read x = .nan) : read (exp x) = .nan := by
  have closed : read nan = .nan := by decide +kernel
  rw [exp, h]
  exact closed

/-- The exponential of what is below the range of the series is zero. -/
theorem exp_of_lt {x : Float} (number : IsNumber x) (nonpos : place x ≤ 0)
    (low : ¬ IsFinite x ∨ x < -746) : exp x = 0 := by
  cases reading : read x with
  | nan => exact absurd reading number
  | infinite negative =>
    cases negative with
    | true =>
      rw [exp, reading]
      rfl
    | false =>
      rw [place, reading, Reading.place, signum_false, one_mul] at nonpos
      exact absurd nonpos (not_le.2 limit_pos)
  | finite negative significand exponent =>
    have less := low.resolve_left (not_not.2 ⟨_, _, _, reading⟩)
    simp only [exp, reading, if_neg (not_lt_of_nonpos nonpos), if_pos less]

/-- **`exp_bounds`**: the exponential of a double that is not positive is between zero and one. -/
theorem exp_bounds {x : Float} (number : IsNumber x) (nonpos : place x ≤ 0) :
    IsNumber (exp x) ∧ 0 ≤ place (exp x) ∧ place (exp x) ≤ 1 := by
  by_cases low : ¬ IsFinite x ∨ x < -746
  · rw [exp_of_lt number nonpos low]
    simp [isFinite_zero.isNumber]
  · obtain ⟨finite, within⟩ := not_or.1 low
    obtain ⟨t, sign, -, -, rounds⟩ := exp_rounds (not_not.1 finite) nonpos within
    exact ⟨rounds.isNumber, rounds.nonneg (by positivity), rounds.le grid_one (scaled_exp_le sign)⟩

/-- **`exp_of_zero`**: the exponential of zero is one. -/
theorem exp_of_zero {x : Float} (finite : IsFinite x) (zero : place x = 0) :
    IsFinite (exp x) ∧ place (exp x) = 1 := by
  have within : ¬ x < -746 := by
    intro less
    obtain ⟨-, -, below⟩ := lt_iff.1 less
    obtain ⟨-, -, bound⟩ := le_iff.1 (show (-746 : Float) ≤ 0 by decide +kernel)
    rw [place_zero] at bound
    linarith
  obtain ⟨t, -, least, most, rounds⟩ := exp_rounds finite zero.le within
  rw [zero, zero_mul] at least most
  obtain rfl : t = 0 := by
    have least' : 0 ≤ t := by exact_mod_cast least
    have most' : t < 0 + 1 := by exact_mod_cast most
    omega
  rw [scaled_exp_zero] at rounds
  exact ⟨rounds.isFinite zero_le_one (one_le_zpow₀ (by norm_num) (by norm_num)), rounds.eq grid_one⟩

/-- **`exp_tiny`**: the exponential of a double of at most `-40` is at most `2 ^ -57`. -/
theorem exp_tiny {x : Float} (number : IsNumber x) (low : place x ≤ -40) :
    place (exp x) ≤ 2 ^ (-57 : ℤ) := by
  by_cases far : ¬ IsFinite x ∨ x < -746
  · rw [exp_of_lt number (by linarith) far, place_zero]
    positivity
  · obtain ⟨finite, within⟩ := not_or.1 far
    obtain ⟨t, -, -, most, rounds⟩ := exp_rounds (not_not.1 finite) (by linarith) within
    have unit := two_zpow_pos 160
    have whole : t / fixedLn2 ≤ -58 := by
      have below : (t : ℝ) < -40 * 2 ^ (160 : ℤ) + 1 := by nlinarith
      have below' : t < -40 * 2 ^ 160 + 1 := by exact_mod_cast below
      have series : (57 : ℤ) * fixedLn2 < 40 * 2 ^ 160 := by decide
      have pos : (0 : ℤ) < fixedLn2 := by decide
      refine Int.le_of_lt_add_one ((Int.ediv_lt_iff_lt_mul pos).2 ?_)
      omega
    exact rounds.le (grid_zpow (by norm_num) (by norm_num)) (scaled_exp_le_zpow whole)

end PrivateQuery.Binary64
