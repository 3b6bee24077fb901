import PrivateQuery.Proofs.Binary64.Integral

/-!
# Integers as doubles

An integer of either sign becomes a nearest double (`rounds_ofInt`), so the order of integers is kept,
but two of them may become the same double. Integers up to `2 ^ 53` in size do not change
(`place_ofInt_of_small`), and of two that are blurred one is larger than that (`large_of_place_eq`).
-/
namespace PrivateQuery.Binary64

theorem rounds_ofInt (i : ℤ) : Rounds i (ofInt i) := by
  have rounds := rounds_nearest one_pos (i < 0) i.natAbs
  have same : signum (i < 0) * ((i.natAbs : ℝ) / (1 : ℕ)) = i := by
    rw [Nat.cast_one, div_one, Nat.cast_natAbs]
    rcases lt_or_ge i 0 with negative | nonneg
    · rw [decide_eq_true negative, signum_true, abs_of_neg negative]
      push_cast
      ring
    · rw [decide_eq_false nonneg.not_gt, signum_false, abs_of_nonneg nonneg, one_mul]
  rwa [same] at rounds

theorem isNumber_ofInt (i : ℤ) : IsNumber (ofInt i) := (rounds_ofInt i).isNumber

theorem place_ofInt_mono {i j : ℤ} (le : i ≤ j) : place (ofInt i) ≤ place (ofInt j) := by
  rcases le.lt_or_eq with less | rfl
  · exact (rounds_ofInt i).mono (rounds_ofInt j) (by exact_mod_cast less)
  · exact le_rfl

theorem grid_intCast {i : ℤ} (few : i.natAbs ≤ 2 ^ 53) : Grid i := by
  rcases Int.natAbs_eq i with same | same
  · rw [same, Int.cast_natCast]
    exact grid_natCast few
  · rw [same, Int.cast_neg, Int.cast_natCast]
    exact (grid_natCast few).neg

theorem place_ofInt_of_small {i : ℤ} (few : i.natAbs ≤ 2 ^ 53) : place (ofInt i) = i :=
  (rounds_ofInt i).eq (grid_intCast few)

/-- Of two integers that become the same double one has more than 53 bits. -/
theorem large_of_place_eq {i j : ℤ} (same : place (ofInt i) = place (ofInt j)) (apart : i ≠ j) :
    2 ^ 53 < i.natAbs ∨ 2 ^ 53 < j.natAbs := by
  by_contra! few
  rw [place_ofInt_of_small few.1, place_ofInt_of_small few.2] at same
  exact apart (by exact_mod_cast same)

/-! ## How far a number moves -/

/-- In the range of full precision a number is moved by at most a part in `2 ^ 53` of its size. -/
theorem Rounds.relative {q : ℝ} {x : Float} (h : Rounds q x) (low : 2 ^ (-1022 : ℤ) ≤ |q|)
    (high : |q| ≤ 2 ^ (1023 : ℤ)) : |place x - q| ≤ |q| * 2 ^ (-53 : ℤ) := by
  have pos : 0 < |q| := (two_zpow_pos _).trans_le low
  obtain ⟨e, least, most⟩ := exists_mem_Ico_zpow pos (by norm_num : (1 : ℝ) < 2)
  have above : -1022 ≤ e := by
    have less := (zpow_lt_zpow_iff_right₀ (by norm_num)).1 (low.trans_lt most)
    omega
  have below : e ≤ 1023 := (zpow_le_zpow_iff_right₀ (by norm_num)).1 (least.trans high)
  have unit := two_zpow_pos (e - 52)
  -- The multiple of the last bit that is nearest is a point of the grid.
  have close : |(round (q / 2 ^ (e - 52)) : ℝ) - q / 2 ^ (e - 52)| ≤ 1 / 2 := by
    rw [abs_sub_comm]
    exact abs_sub_round _
  have size : |q / 2 ^ (e - 52)| < 2 ^ 53 := by
    rw [abs_div, abs_of_pos unit, div_lt_iff₀ unit, ← zpow_natCast, ← zpow_add₀ (by norm_num)]
    exact most.trans_eq (by congr 1; ring)
  generalize same : round (q / 2 ^ (e - 52)) = n at close
  have moved : |(n : ℝ) * 2 ^ (e - 52) - q| ≤ 1 / 2 * 2 ^ (e - 52) := by
    have scaled : (n : ℝ) * 2 ^ (e - 52) - q = (n - q / 2 ^ (e - 52)) * 2 ^ (e - 52) := by
      rw [sub_mul, div_mul_cancel₀ _ unit.ne']
    rw [scaled, abs_mul, abs_of_pos unit]
    exact mul_le_mul_of_nonneg_right close unit.le
  have few : |n| ≤ 2 ^ 53 := by
    have less : |(n : ℝ)| < 2 ^ 53 + 1 := by linarith [abs_sub_abs_le_abs_sub (n : ℝ) (q / 2 ^ (e - 52))]
    have less' : |n| < 2 ^ 53 + 1 := by exact_mod_cast less
    omega
  have grid : Grid (n * 2 ^ (e - 52)) := by
    refine ⟨n, e - 52, few, by omega, rfl, ?_⟩
    rw [abs_mul, abs_of_pos unit]
    calc |(n : ℝ)| * 2 ^ (e - 52) ≤ 2 ^ 53 * 2 ^ (e - 52) :=
          mul_le_mul_of_nonneg_right (by exact_mod_cast few) unit.le
      _ = 2 ^ (e + 1) := (two_zpow_eq 53 (by ring)).symm
      _ ≤ limit := zpow_le_zpow_right₀ (by norm_num) (by omega)
  calc |place x - q| ≤ |n * 2 ^ (e - 52) - q| := h.nearest _ grid
    _ ≤ 1 / 2 * 2 ^ (e - 52) := moved
    _ = 2 ^ e * 2 ^ (-53 : ℤ) := by
        rw [← zpow_add₀ (by norm_num), show e - 52 = 1 + (e + -53) by ring,
          zpow_add₀ (by norm_num) 1, zpow_one]
        ring
    _ ≤ |q| * 2 ^ (-53 : ℤ) := mul_le_mul_of_nonneg_right least (two_zpow_pos _).le

/-! ## Doubles that are integers -/

theorem place_of_isWhole {x : Float} (whole : isWhole x = true) : place x = truncate x := by
  unfold isWhole at whole
  split at whole
  · rename_i negative s e reading
    obtain ⟨part, same, -, -⟩ := whole_bounds s e
    have cut : truncate x = if negative then -(part : ℤ) else part := by
      simp only [truncate, reading, Nat.pow_eq, same]
    have size : (s : ℝ) * 2 ^ e = part := by
      simp only [Nat.pow_eq, Bool.or_eq_true, decide_eq_true_eq, beq_iff_eq] at whole
      rw [same]
      split_ifs with integral
      · obtain ⟨k, rfl⟩ := Int.eq_ofNat_of_zero_le integral
        simp
      · obtain ⟨k, rfl⟩ : ∃ k : ℕ, e = -k := ⟨(-e).toNat, by omega⟩
        have divides : 2 ^ k ∣ s := by
          simpa using Nat.dvd_of_mod_eq_zero (whole.resolve_left integral)
        rw [neg_neg, Int.toNat_natCast, Nat.cast_div divides (by positivity), zpow_neg, zpow_natCast,
          div_eq_mul_inv]
        push_cast
        rfl
    rw [place, reading, Reading.place, size, cut]
    cases negative <;> simp
  · simp at whole

theorem isWhole_of_place {x : Float} (finite : IsFinite x) {i : ℤ} (at_ : place x = i) :
    isWhole x = true := by
  obtain ⟨negative, s, e, reading⟩ := finite
  rw [isWhole_iff reading]
  refine or_iff_not_imp_left.2 fun part => ?_
  obtain ⟨k, rfl⟩ : ∃ k : ℕ, e = -k := ⟨(-e).toNat, by omega⟩
  have size := abs_place_of_read reading
  rw [at_, zpow_neg, zpow_natCast, eq_mul_inv_iff_mul_eq₀ (by positivity)] at size
  have exact : i.natAbs * 2 ^ k = s := by
    rw [← Int.cast_abs, Int.abs_eq_natAbs] at size
    exact_mod_cast size
  rw [neg_neg, Int.toNat_natCast, ← exact]
  exact Nat.mul_mod_left _ _

end PrivateQuery.Binary64
