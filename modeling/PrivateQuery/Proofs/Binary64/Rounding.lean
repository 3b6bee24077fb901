import PrivateQuery.Proofs.Binary64.Grid

/-!
# Rounding of arithmetic

Arithmetic computes a mantissa with two more bits, the round bit and the sticky bit, moves it to the
exponent that fits its size, and rounds it there. The two bits place the exact result between half
units (`Marks`); moving the mantissa keeps the mark, rounding it stays within half a unit, and so the
packed result rounds the exact one (`rounds_roundWithAccuracy`).
-/
namespace PrivateQuery.Binary64

open Float.Model (UnpackedFloat Format)
open Float.Model.UnpackedFloat

/-! ## Marks -/

/-- The half units that a mantissa and its round bit stand for. -/
def halves (em : ExtendedMantissa) : ℕ := 2 * em.mantissa + em.roundBit.toNat

@[simp] theorem halves_false (m : ℕ) (sticky : Bool) : halves ⟨m, false, sticky⟩ = 2 * m := rfl

@[simp] theorem halves_true (m : ℕ) (sticky : Bool) : halves ⟨m, true, sticky⟩ = 2 * m + 1 := rfl

/-- A number is where a mantissa and its two bits say: at a half unit, or between it and the next. -/
inductive Marks (em : ExtendedMantissa) (x : ℝ) : Prop where
  | exact (clear : em.stickyBit = false) (same : 2 * x = halves em) : Marks em x
  | between (set : em.stickyBit = true) (low : halves em < 2 * x) (high : 2 * x < halves em + 1) :
    Marks em x

theorem Marks.bounds {em : ExtendedMantissa} {x : ℝ} (h : Marks em x) :
    halves em ≤ 2 * x ∧ 2 * x < halves em + 1 := by
  cases h with
  | exact clear same => constructor <;> linarith
  | between set low high => exact ⟨low.le, high⟩

theorem marks_exact (m : ℕ) : Marks (.ofMantissaAndAccuracy m .exact) m := by
  refine .exact rfl ?_
  simp [ExtendedMantissa.ofMantissaAndAccuracy]

theorem marks_low {m : ℕ} {x : ℝ} (low : m < x) (high : x < m + 1 / 2) :
    Marks (.ofMantissaAndAccuracy m (.inexact .lt)) x := by
  refine .between rfl ?_ ?_ <;> simp [ExtendedMantissa.ofMantissaAndAccuracy] <;> linarith

theorem marks_half (m : ℕ) : Marks (.ofMantissaAndAccuracy m (.inexact .eq)) (m + 1 / 2) := by
  refine .exact rfl ?_
  simp [ExtendedMantissa.ofMantissaAndAccuracy]
  ring

theorem marks_high {m : ℕ} {x : ℝ} (low : m + 1 / 2 < x) (high : x < m + 1) :
    Marks (.ofMantissaAndAccuracy m (.inexact .gt)) x := by
  refine .between rfl ?_ ?_ <;> simp [ExtendedMantissa.ofMantissaAndAccuracy] <;> linarith

theorem halves_shiftRightOne (em : ExtendedMantissa) : halves em.shiftRightOne = em.mantissa := by
  have parts := Nat.mod_add_div em.mantissa 2
  rcases Nat.mod_two_eq_zero_or_one em.mantissa with even | odd
  · simp only [halves, ExtendedMantissa.shiftRightOne, even]
    simpa [even] using parts
  · simp only [halves, ExtendedMantissa.shiftRightOne, odd]
    simp [odd] at parts ⊢
    omega

/-- Half a mantissa with a half unit marks half the number. -/
theorem Marks.shiftRightOne {em : ExtendedMantissa} {x : ℝ} (h : Marks em x) :
    Marks em.shiftRightOne (x / 2) := by
  obtain ⟨m, round, sticky⟩ := em
  have half := halves_shiftRightOne ⟨m, round, sticky⟩
  have bounds := h.bounds
  cases round with
  | false =>
    rw [halves_false, Nat.cast_mul, Nat.cast_ofNat] at bounds
    cases h with
    | exact clear same =>
      rw [halves_false, Nat.cast_mul, Nat.cast_ofNat] at same
      exact .exact clear (by rw [half]; linarith)
    | between set low high =>
      rw [halves_false, Nat.cast_mul, Nat.cast_ofNat] at low
      exact .between set (by rw [half]; linarith) (by rw [half]; linarith)
  | true =>
    -- The round bit becomes sticky.
    rw [halves_true, Nat.cast_add, Nat.cast_mul, Nat.cast_ofNat, Nat.cast_one] at bounds
    exact .between rfl (by rw [half]; linarith) (by rw [half]; linarith)

theorem Marks.shiftRight {em : ExtendedMantissa} {x : ℝ} (h : Marks em x) (k : ℕ) :
    Marks (em >>> k) (x / 2 ^ k) := by
  change Marks (k.repeat ExtendedMantissa.shiftRightOne em) _
  induction k with
  | zero => simpa [Nat.repeat] using h
  | succ k ih =>
    have next := ih.shiftRightOne
    rwa [div_div, ← pow_succ] at next

theorem Marks.rounded {em : ExtendedMantissa} {x : ℝ} (h : Marks em x) :
    |(em.roundedMantissa : ℝ) - x| ≤ 1 / 2 := by
  obtain ⟨m, round, sticky⟩ := em
  obtain ⟨low, high⟩ := h.bounds
  rw [abs_le]
  cases round <;> cases sticky <;>
    simp only [halves_false, halves_true, ExtendedMantissa.roundedMantissa,
      ExtendedMantissa.accuracy, Accuracy.roundToNearestEven] at low high ⊢ <;>
    push_cast at low high ⊢
  · constructor <;> linarith
  · constructor <;> linarith
  · -- A tie goes either way.
    rcases h with ⟨-, same⟩ | ⟨set, -, -⟩
    · rw [halves_true] at same
      push_cast at same
      rcases Nat.mod_two_eq_zero_or_one m with even | odd
      · rw [even]
        push_cast
        constructor <;> linarith
      · rw [odd]
        push_cast
        constructor <;> linarith
    · cases set
  · constructor <;> linarith

/-! ## Exponents -/

theorem targetExponent_binary64 (total : ℤ) :
    Format.binary64.targetExponent total = max (total - 53) (-1074) := by
  simp [Format.targetExponent, Format.mantissaBits, Format.minExponent]

theorem targetExponent_eq (m : ℕ) (e : ℤ) :
    Format.binary64.targetExponent (Float.Model.totalExponent m e) =
      max ((m.log2 : ℤ) + e - 52) (-1074) := by
  rw [targetExponent_binary64, Float.Model.totalExponent]
  congr 1
  omega

theorem limit_eq : limit = 2 ^ (52 : ℤ) * 2 ^ (972 : ℤ) := by
  rw [← zpow_add₀ (by norm_num)]
  rfl

/-- A packed result is where its mantissa says, short of the infinities. -/
theorem place_packed {negative : Bool} {n : ℕ} {t : ℤ}
    (canonical : (Reading.finite negative n t).Canonical) :
    (Reading.finite negative n t).packed.place = signum negative * min ((n : ℝ) * 2 ^ t) limit ∧
      (Reading.finite negative n t).packed ≠ .nan := by
  obtain ⟨small, least, normal⟩ := canonical
  by_cases large : 972 ≤ t
  · have full : (2 : ℝ) ^ (52 : ℤ) ≤ n := by exact_mod_cast normal.resolve_left (by omega)
    have beyond : limit ≤ (n : ℝ) * 2 ^ t := by
      rw [limit_eq]
      exact mul_le_mul full (zpow_le_zpow_right₀ (by norm_num) large) (two_zpow_pos 972).le
        (by positivity)
    rw [Reading.packed, if_pos large, min_eq_right beyond]
    exact ⟨rfl, by simp⟩
  · rw [Reading.packed, if_neg large, min_eq_left (magnitude_lt_limit small (by omega)).le]
    exact ⟨rfl, by simp⟩

/-- Once rounded, a mantissa needs at most one more place, and moving it there is exact. -/
theorem shift_rounded {n : ℕ} {t : ℤ} (small : n ≤ 2 ^ 53) (least : -1074 ≤ t)
    (normal : t = -1074 ∨ 2 ^ 52 ≤ n) :
    ∃ n' t', (shiftToTargetExponent Format.binary64 n t .exact).1.mantissa = n' ∧
      (shiftToTargetExponent Format.binary64 n t .exact).2 = t' ∧
      (n' : ℝ) * 2 ^ t' = n * 2 ^ t ∧
      ∀ negative, (Reading.finite negative n' t').Canonical := by
  simp only [shiftToTargetExponent, shiftToExponent, targetExponent_eq]
  rcases small.lt_or_eq with less | rfl
  · have log : n.log2 ≤ 52 := by
      rcases Nat.eq_zero_or_pos n with rfl | positive
      · simp
      · exact Nat.le_of_lt_succ ((Nat.log2_lt positive.ne').2 less)
    have stays : (max ((n.log2 : ℤ) + t - 52) (-1074) - t).toNat = 0 := by omega
    rw [stays]
    exact ⟨n, t, rfl, by simp, rfl, fun _ => ⟨less, least, normal⟩⟩
  · have log : (2 ^ 53 : ℕ).log2 = 53 := Nat.log2_two_pow
    have moves : (max (((2 ^ 53 : ℕ).log2 : ℤ) + t - 52) (-1074) - t).toNat = 1 := by
      rw [log]
      push_cast
      omega
    rw [moves]
    refine ⟨2 ^ 52, t + 1, rfl, rfl, ?_, fun _ => ⟨by norm_num, by omega, .inr le_rfl⟩⟩
    rw [zpow_add_one₀ (by norm_num)]
    push_cast
    ring

/-! ## Results -/

theorem read_zero (s : Sign) : read (.ofModel (.pack (.zero s))) = .finite (isNegative s) 0 (-1074) :=
  read_ofModel_pack (u := .zero s) ⟨by norm_num, le_rfl, .inl rfl⟩

theorem rounds_zero (s : Sign) : Rounds 0 (.ofModel (.pack (.zero s))) := by
  have number : IsNumber (.ofModel (.pack (.zero s))) := by
    rw [IsNumber, read_zero]
    simp
  have rounds := Rounds.refl number
  rwa [place, read_zero, Reading.place, Nat.cast_zero, zero_mul, mul_zero] at rounds

theorem Marks.span {m : ℕ} {e : ℤ} {accuracy : Accuracy} {v : ℝ}
    (marks : Marks (.ofMantissaAndAccuracy m accuracy) (v / 2 ^ e)) :
    (m : ℝ) * 2 ^ e ≤ v ∧ v < (m + 1) * 2 ^ e := by
  obtain ⟨low, high⟩ := marks.bounds
  have first : (ExtendedMantissa.ofMantissaAndAccuracy m accuracy).mantissa = m := by
    unfold ExtendedMantissa.ofMantissaAndAccuracy
    split <;> rfl
  rw [← le_div_iff₀ (two_zpow_pos e), ← div_lt_iff₀ (two_zpow_pos e)]
  constructor
  · have units : (2 : ℝ) * m ≤ halves (.ofMantissaAndAccuracy m accuracy) := by
      rw [halves, first]
      exact_mod_cast Nat.le_add_right _ _
    linarith
  · have units : (halves (.ofMantissaAndAccuracy m accuracy) : ℝ) ≤ 2 * m + 1 := by
      rw [halves, first]
      exact_mod_cast Nat.add_le_add_left (Bool.toNat_le _) _
    linarith

/-- At the exponent that fits a mantissa, the number has 53 bits. -/
theorem scaled_bits {m : ℕ} {e t : ℤ} {v : ℝ} (span : (m : ℝ) * 2 ^ e ≤ v ∧ v < (m + 1) * 2 ^ e)
    (target : t = max ((m.log2 : ℤ) + e - 52) (-1074)) (fits : e ≤ t) :
    v / 2 ^ t < 2 ^ (53 : ℤ) ∧ (t = -1074 ∨ 2 ^ (52 : ℤ) ≤ v / 2 ^ t) := by
  have unit := two_zpow_pos t
  constructor
  · have bits : (m : ℝ) + 1 ≤ 2 ^ ((m.log2 : ℤ) + 1) := by
      exact_mod_cast Nat.lt_log2_self (n := m)
    rw [div_lt_iff₀ unit, ← zpow_add₀ (by norm_num)]
    calc v < (m + 1) * 2 ^ e := span.2
      _ ≤ 2 ^ ((m.log2 : ℤ) + 1) * 2 ^ e := mul_le_mul_of_nonneg_right bits (two_zpow_pos e).le
      _ = 2 ^ ((m.log2 : ℤ) + 1 + e) := (zpow_add₀ (by norm_num) _ _).symm
      _ ≤ 2 ^ (53 + t) := zpow_le_zpow_right₀ (by norm_num) (by omega)
  · rcases Nat.eq_zero_or_pos m with rfl | positive
    · left
      simp at target
      omega
    · refine or_iff_not_imp_left.2 fun above => ?_
      have bits : (2 : ℝ) ^ (m.log2 : ℤ) ≤ m := by exact_mod_cast Nat.log2_self_le positive.ne'
      rw [le_div_iff₀ unit, ← zpow_add₀ (by norm_num)]
      calc (2 : ℝ) ^ (52 + t) = 2 ^ ((m.log2 : ℤ) + e) := by
            congr 1
            omega
        _ = 2 ^ (m.log2 : ℤ) * 2 ^ e := zpow_add₀ (by norm_num) _ _
        _ ≤ m * 2 ^ e := mul_le_mul_of_nonneg_right bits (two_zpow_pos e).le
        _ ≤ v := span.1

/-- **`rounds_roundWithAccuracy`**: a mantissa whose bits mark a number, at an exponent that is not
too large, is packed as a double that rounds the number. -/
theorem rounds_roundWithAccuracy {s : Sign} {m : ℕ} {e : ℤ} {accuracy : Accuracy} {v : ℝ}
    (marks : Marks (.ofMantissaAndAccuracy m accuracy) (v / 2 ^ e))
    (fits : e ≤ max ((m.log2 : ℤ) + e - 52) (-1074)) :
    Rounds (signum (isNegative s) * v)
      (.ofModel (.pack (roundWithAccuracy Format.binary64 s m e accuracy))) := by
  obtain ⟨t, target⟩ : ∃ t, t = max ((m.log2 : ℤ) + e - 52) (-1074) := ⟨_, rfl⟩
  rw [← target] at fits
  -- The mantissa is moved by `k` places to the exponent `t`, and rounded there to `n`.
  obtain ⟨k, moved⟩ : ∃ k : ℕ, t = e + k := ⟨(t - e).toNat, by omega⟩
  have scale : v / 2 ^ e / 2 ^ k = v / 2 ^ t := by
    rw [div_div, moved, zpow_add₀ (by norm_num), zpow_natCast]
  have atTarget := marks.shiftRight k
  rw [scale] at atTarget
  obtain ⟨n, rounded⟩ :
      ∃ n, n = (ExtendedMantissa.ofMantissaAndAccuracy m accuracy >>> k).roundedMantissa := ⟨_, rfl⟩
  have close := atTarget.rounded
  rw [← rounded] at close
  obtain ⟨upper, normal⟩ := scaled_bits marks.span target fits
  have normal' : t = -1074 ∨ 2 ^ 52 ≤ v / 2 ^ t := by exact_mod_cast normal
  obtain ⟨small, full⟩ := rounded_bits close (by exact_mod_cast upper) normal'
  obtain ⟨n', t', mantissa, exponent, same, canonical⟩ := shift_rounded small (by omega) full
  have shifted : shiftToTargetExponent Format.binary64 m e accuracy =
      (ExtendedMantissa.ofMantissaAndAccuracy m accuracy >>> k, t) := by
    have places : (t - e).toNat = k := by omega
    simp only [shiftToTargetExponent, shiftToExponent, targetExponent_eq, ← target, places]
    rw [moved]
  -- The packed result is at the rounded multiple, short of the infinities.
  have result : place (.ofModel (.pack (roundWithAccuracy Format.binary64 s m e accuracy))) =
        signum (isNegative s) * min ((n : ℝ) * 2 ^ t) limit ∧
      IsNumber (.ofModel (.pack (roundWithAccuracy Format.binary64 s m e accuracy))) := by
    simp only [roundWithAccuracy, shifted, ← rounded, mantissa, exponent, ← same]
    split
    · rename_i zero
      rw [place, IsNumber, read_zero, zero]
      simp [Reading.place, limit_pos.le]
    · rename_i positive
      have whole : (Reading.ofUnpacked (.finite s n' t' (Nat.pos_of_ne_zero positive))).Canonical :=
        canonical (isNegative s)
      rw [place, IsNumber, read_ofModel_pack whole]
      exact place_packed whole
  refine ⟨result.2, fun g grid => ?_⟩
  rw [result.1]
  cases s with
  | negative =>
    have near := nearest_clipped close normal' grid.neg
    simp only [isNegative, signum_true, neg_one_mul]
    rw [← abs_neg, ← abs_neg (g - _)]
    convert near using 2 <;> ring
  | positive =>
    simpa [isNegative] using nearest_clipped close normal' grid

theorem log2_shiftLeft {m : ℕ} (positive : 0 < m) (k : ℕ) : (m <<< k).log2 = m.log2 + k := by
  have shifted : 0 < m <<< k := by
    rw [Nat.shiftLeft_eq]
    positivity
  rw [Nat.log2_eq_iff shifted.ne', Nat.shiftLeft_eq]
  have low := Nat.log2_self_le positive.ne'
  have high := Nat.lt_log2_self (n := m)
  constructor
  · rw [pow_add]
    exact Nat.mul_le_mul_right _ low
  · rw [show m.log2 + k + 1 = m.log2 + 1 + k by omega, pow_add _ (m.log2 + 1)]
    exact Nat.mul_lt_mul_of_pos_right high (by positivity)

theorem rounds_round {s : Sign} {m : ℕ} {e : ℤ} (positive : 0 < m) :
    Rounds (signum (isNegative s) * (m * 2 ^ e))
      (.ofModel (.pack (UnpackedFloat.round Format.binary64 s m e))) := by
  obtain ⟨t, target⟩ : ∃ t, t = max ((m.log2 : ℤ) + e - 52) (-1074) := ⟨_, rfl⟩
  obtain ⟨k, places⟩ : ∃ k, k = (e - t).toNat := ⟨_, rfl⟩
  simp only [UnpackedFloat.round, decreaseExponent, targetExponent_eq, ← target, ← places]
  have same : (m : ℝ) * 2 ^ e / 2 ^ (e - k) = (m <<< k : ℕ) := by
    rw [Nat.shiftLeft_eq, mul_div_assoc, ← zpow_sub₀ (by norm_num)]
    push_cast
    rw [← zpow_natCast]
    congr 2
    omega
  refine rounds_roundWithAccuracy ?_ ?_
  · rw [same]
    exact marks_exact _
  · rw [log2_shiftLeft positive]
    push_cast
    omega

theorem rounds_normalize {m e : ℤ} {zeroSign : Sign} :
    Rounds (m * 2 ^ e)
      (.ofModel (.pack (UnpackedFloat.normalize Format.binary64 m e zeroSign))) := by
  unfold UnpackedFloat.normalize
  rcases lt_trichotomy m 0 with less | rfl | more
  · rw [compare_lt_iff_lt.2 less]
    have rounds := rounds_round (s := .negative) (e := e) (show 0 < (-m).toNat by omega)
    have same : ((-m).toNat : ℝ) = -m := by exact_mod_cast Int.toNat_of_nonneg (by omega)
    simpa [isNegative, same] using rounds
  · simpa using rounds_zero zeroSign
  · rw [compare_gt_iff_gt.2 more]
    have rounds := rounds_round (s := .positive) (e := e) (show 0 < m.toNat by omega)
    have same : (m.toNat : ℝ) = m := by exact_mod_cast Int.toNat_of_nonneg more.le
    simpa [isNegative, same] using rounds

end PrivateQuery.Binary64
