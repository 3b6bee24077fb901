import PrivateQuery.Proofs.Binary64.Nearest

/-!
# Naturals as doubles

Around a natural of more than 53 bits the doubles are some power of two apart (`spacing`), and the
natural becomes the nearer of its two neighbours (`place_ofNat`). So it becomes a smaller number
exactly when the lower neighbour is nearer, or the even one of two that are equally near
(`place_ofNat_lt_iff`); what it loses is at most one part in `2 ^ 53` (`le_mul_place_ofNat`).
-/
namespace PrivateQuery.Binary64

/-- How far apart the doubles around a natural are, counting no fractions. -/
def spacing (n : ℕ) : ℕ := 2 ^ (n.log2 - 52)

/-- The double below is nearer, or as near as the one above and even. -/
def RoundedDown (n : ℕ) : Prop :=
  n % spacing n ≠ 0 ∧
    (2 * (n % spacing n) < spacing n ∨
      2 * (n % spacing n) = spacing n ∧ n / spacing n % 2 = 0)

instance RoundedDown.decidable (n : ℕ) : Decidable (RoundedDown n) :=
  inferInstanceAs (Decidable (_ ∧ _))

theorem spacing_pos (n : ℕ) : 0 < spacing n := by
  unfold spacing
  positivity

theorem log2Quotient_one {n : ℕ} (pos : 0 < n) : log2Quotient n 1 = n.log2 := by
  have low := Nat.log2_self_le pos.ne'
  have one : Nat.log2 1 = 0 := by decide
  simp only [log2Quotient, one, Nat.cast_zero, sub_zero, Nat.cast_nonneg, if_true,
    Int.toNat_natCast, one_mul, Nat.pow_eq]
  rw [if_neg (not_lt.2 low)]

theorem place_ofNat {n : ℕ} (word : n ≤ 2 ^ 63) :
    place (ofNat n) = (divRound n (spacing n) * spacing n : ℕ) := by
  rcases Nat.eq_zero_or_pos n with rfl | pos
  · rw [place_ofNat_zero, show divRound 0 (spacing 0) * spacing 0 = 0 by decide, Nat.cast_zero]
  have short := (isFinite_ofNat word).place_lt
  have bits : n.log2 < 64 := (Nat.log2_lt pos.ne').2 (by omega)
  rw [ofNat, (place_nearest pos one_pos rfl).2] at short ⊢
  rw [min_eq_left ((min_lt_iff.1 short).resolve_right (lt_irrefl _)).le, log2Quotient_one pos,
    max_eq_left (by omega)]
  split_ifs with large
  · obtain ⟨k, places⟩ : ∃ k : ℕ, n.log2 = 52 + k := ⟨n.log2 - 52, by omega⟩
    simp [spacing, places]
  · -- Below `2 ^ 52` the last bit is a fraction and nothing is rounded.
    obtain ⟨k, places⟩ : ∃ k : ℕ, 52 = n.log2 + k := ⟨52 - n.log2, by omega⟩
    have unit : (n.log2 : ℤ) - 52 = -k := by omega
    have one : n.log2 - 52 = 0 := by omega
    simp [spacing, unit, one, divRound, Nat.mod_one]

theorem place_ofNat_eq_zero_iff {n : ℕ} : place (ofNat n) = 0 ↔ n = 0 := by
  refine ⟨fun zero => ?_, fun none => none ▸ place_ofNat_zero⟩
  by_contra some
  have least := one_le_place_ofNat (Nat.pos_of_ne_zero some)
  linarith

/-- Rounded division falls short exactly when the remainder is less than a half, or a half and the
quotient even. -/
theorem divRound_mul_lt_iff (n : ℕ) {u : ℕ} (pos : 0 < u) :
    divRound n u * u < n ↔
      n % u ≠ 0 ∧ (2 * (n % u) < u ∨ 2 * (n % u) = u ∧ n / u % 2 = 0) := by
  have parts := Nat.div_add_mod n u
  have less := Nat.mod_lt n pos
  rw [mul_comm] at parts
  have next : (n / u + 1) * u = n / u * u + u := Nat.succ_mul _ _
  unfold divRound
  dsimp only
  split_ifs with below above
  · omega
  · omega
  · rcases Nat.mod_two_eq_zero_or_one (n / u) with even | odd
    · rw [even, add_zero]
      omega
    · rw [odd]
      omega

/-- **`place_ofNat_lt_iff`**: the magnitude of a word becomes a smaller number exactly when it is
rounded down. -/
theorem place_ofNat_lt_iff {n : ℕ} (word : n ≤ 2 ^ 63) :
    place (ofNat n) < n ↔ RoundedDown n := by
  rw [place_ofNat word, Nat.cast_lt]
  exact divRound_mul_lt_iff n (spacing_pos n)

theorem le_mul_place_ofNat {n : ℕ} (word : n ≤ 2 ^ 63) :
    (n : ℝ) ≤ place (ofNat n) * (1 + 1 / 2 ^ 53) := by
  rcases Nat.eq_zero_or_pos n with rfl | pos
  · simp
  have unit : (0 : ℝ) < spacing n := by exact_mod_cast spacing_pos n
  have nonneg := (rounds_ofNat n).nonneg (Nat.cast_nonneg n)
  by_cases wide : 52 ≤ n.log2
  · have close : (n : ℝ) ≤ place (ofNat n) + spacing n / 2 := by
      obtain ⟨low, -⟩ := abs_le.1 (divRound_close n (spacing_pos n))
      have scaled := mul_le_mul_of_nonneg_right low unit.le
      rw [sub_mul, div_mul_cancel₀ _ unit.ne'] at scaled
      rw [place_ofNat word]
      push_cast
      linarith
    -- The power of two below the natural is a double.
    have below : (2 : ℝ) ^ 52 * spacing n ≤ place (ofNat n) := by
      have same : (2 : ℝ) ^ 52 * spacing n = 2 ^ (n.log2 : ℤ) := by
        rw [spacing, Nat.cast_pow, Nat.cast_ofNat, ← pow_add, Nat.add_sub_cancel' wide,
          zpow_natCast]
      have bits : n.log2 < 64 := (Nat.log2_lt pos.ne').2 (by omega)
      rw [same]
      refine (rounds_ofNat n).ge (grid_zpow (by omega) (by omega)) ?_
      exact_mod_cast Nat.log2_self_le pos.ne'
    linarith
  · have exact : ¬ RoundedDown n := by
      have one : spacing n = 1 := by simp [spacing, Nat.sub_eq_zero_of_le (not_le.1 wide).le]
      simp [RoundedDown, one, Nat.mod_one]
    have kept := not_lt.1 (mt (place_ofNat_lt_iff word).1 exact)
    linarith

end PrivateQuery.Binary64
