import PrivateQuery.Binary64.Elementary
import PrivateQuery.Proofs.Binary64.Arithmetic

/-!
# The double nearest to a quotient

`nearest` works on integers and makes the bits of its result itself. It rounds the quotient too
(`rounds_nearest`), so integers become their nearest doubles, and the logarithm of a finite double
that is at least one is a small number that is not negative (`ln_bounds`).
-/
namespace PrivateQuery.Binary64

/-! ## Integers -/

theorem divRound_close (num : ℕ) {den : ℕ} (pos : 0 < den) :
    |(divRound num den : ℝ) - num / den| ≤ 1 / 2 := by
  have pos' : (0 : ℝ) < den := by exact_mod_cast pos
  have parts : (den : ℝ) * (num / den : ℕ) + (num % den : ℕ) = num := by
    exact_mod_cast Nat.div_add_mod num den
  have less : ((num % den : ℕ) : ℝ) < den := by exact_mod_cast Nat.mod_lt num pos
  have split : (num : ℝ) / den = (num / den : ℕ) + (num % den : ℕ) / den := by
    rw [← parts]
    field_simp
  have nonneg : (0 : ℝ) ≤ (num % den : ℕ) / den := by positivity
  unfold divRound
  rw [split, abs_le]
  dsimp only
  split_ifs with below above
  · have side : ((num % den : ℕ) : ℝ) / den < 1 / 2 := by
      have below' : 2 * ((num % den : ℕ) : ℝ) < den := by exact_mod_cast below
      rw [div_lt_div_iff₀ pos' (by norm_num)]
      linarith
    constructor <;> linarith
  · have side : 1 / 2 < ((num % den : ℕ) : ℝ) / den := by
      have above' : (den : ℝ) < 2 * ((num % den : ℕ) : ℝ) := by exact_mod_cast above
      rw [div_lt_div_iff₀ (by norm_num) pos']
      linarith
    have whole : ((num % den : ℕ) : ℝ) / den < 1 := (div_lt_one pos').2 less
    push_cast
    constructor <;> linarith
  · have side : ((num % den : ℕ) : ℝ) / den = 1 / 2 := by
      have half : 2 * ((num % den : ℕ) : ℝ) = den := by exact_mod_cast (show _ = den by omega)
      rw [div_eq_div_iff pos'.ne' (by norm_num)]
      linarith
    rcases Nat.mod_two_eq_zero_or_one (num / den) with even | odd
    · rw [even, side]
      push_cast
      constructor <;> linarith
    · rw [odd, side]
      push_cast
      constructor <;> linarith

theorem log2Quotient_bounds {num den : ℕ} (hn : 0 < num) (hd : 0 < den) :
    (2 : ℝ) ^ log2Quotient num den ≤ num / den ∧
      (num : ℝ) / den < 2 ^ (log2Quotient num den + 1) := by
  have pos : (0 : ℝ) < den := by exact_mod_cast hd
  have lowN : (2 : ℝ) ^ (num.log2 : ℤ) ≤ num := by exact_mod_cast Nat.log2_self_le hn.ne'
  have highN : (num : ℝ) < 2 ^ ((num.log2 : ℤ) + 1) := by exact_mod_cast Nat.lt_log2_self (n := num)
  have lowD : (2 : ℝ) ^ (den.log2 : ℤ) ≤ den := by exact_mod_cast Nat.log2_self_le hd.ne'
  have highD : (den : ℝ) < 2 ^ ((den.log2 : ℤ) + 1) := by exact_mod_cast Nat.lt_log2_self (n := den)
  obtain ⟨k, diff⟩ : ∃ k, k = (num.log2 : ℤ) - den.log2 := ⟨_, rfl⟩
  -- The difference of the logarithms is at most one too large.
  have atLeast : (2 : ℝ) ^ (k - 1) ≤ num / den := by
    rw [le_div_iff₀ pos]
    calc (2 : ℝ) ^ (k - 1) * den ≤ 2 ^ (k - 1) * 2 ^ ((den.log2 : ℤ) + 1) :=
          mul_le_mul_of_nonneg_left highD.le (two_zpow_pos _).le
      _ = 2 ^ (num.log2 : ℤ) := by
          rw [← zpow_add₀ (by norm_num)]
          congr 1
          omega
      _ ≤ num := lowN
  have atMost : (num : ℝ) / den < 2 ^ (k + 1) := by
    rw [div_lt_iff₀ pos]
    calc (num : ℝ) < 2 ^ ((num.log2 : ℤ) + 1) := highN
      _ = 2 ^ (k + 1) * 2 ^ (den.log2 : ℤ) := by
          rw [← zpow_add₀ (by norm_num)]
          congr 1
          omega
      _ ≤ 2 ^ (k + 1) * den := mul_le_mul_of_nonneg_left lowD (two_zpow_pos _).le
  have decided : (if 0 ≤ k then num < den * 2 ^ k.toNat else num * 2 ^ (-k).toNat < den) ↔
      (num : ℝ) / den < 2 ^ k := by
    rw [div_lt_iff₀ pos]
    split_ifs with sign
    · obtain ⟨j, rfl⟩ := Int.eq_ofNat_of_zero_le sign
      rw [Int.toNat_natCast, zpow_natCast, mul_comm]
      exact_mod_cast Iff.rfl
    · obtain ⟨j, same⟩ : ∃ j : ℕ, k = -j := ⟨(-k).toNat, by omega⟩
      subst same
      rw [neg_neg, Int.toNat_natCast, zpow_neg, zpow_natCast, inv_mul_eq_div,
        lt_div_iff₀ (by positivity)]
      exact_mod_cast Iff.rfl
  unfold log2Quotient
  simp only [← diff, Nat.pow_eq]
  by_cases below : (num : ℝ) / den < 2 ^ k
  · rw [if_pos (decided.2 below)]
    exact ⟨atLeast, by simpa using below⟩
  · rw [if_neg (mt decided.1 below)]
    exact ⟨not_lt.1 below, atMost⟩

/-! ## Bits -/

/-- The bits made of a canonical significand and its exponent are read as these. -/
theorem read_bits {n : ℕ} {t : ℤ} (canonical : (Reading.finite false n t).Canonical) :
    read (if (t + 1074).toNat * 0x10000000000000 + n < 0x7FF0000000000000
      then Float.ofBits ((t + 1074).toNat * 0x10000000000000 + n).toUInt64 else infinity) =
        (Reading.finite false n t).packed := by
  obtain ⟨small, least, normal⟩ := canonical
  obtain ⟨k, exponent⟩ : ∃ k : ℕ, t = k - 1074 := ⟨(t + 1074).toNat, by omega⟩
  subst exponent
  have places : ((k : ℤ) - 1074 + 1074).toNat = k := by omega
  rw [places, Reading.packed]
  by_cases large : 972 ≤ (k : ℤ) - 1074
  · rw [if_neg (by omega), if_pos large]
    decide +kernel
  · rw [if_pos (by omega), if_neg large, read_ofBits]
    have word : ((k * 0x10000000000000 + n).toUInt64).toNat = k * 2 ^ 52 + n := by
      rw [Nat.toUInt64, UInt64.toNat_ofNat_of_lt']
      · omega
      · unfold UInt64.size
        omega
    rw [word]
    by_cases full : 2 ^ 52 ≤ n
    · have fields := ofBits_of_fields 0 (k + 1) (n - 2 ^ 52) (by norm_num) (by omega)
        (by omega)
      rw [show 0 * 2 ^ 63 + (k + 1) * 2 ^ 52 + (n - 2 ^ 52) = k * 2 ^ 52 + n by omega] at fields
      rw [fields, Reading.ofFields, if_neg (by omega), if_neg (by omega)]
      congr 1
      · omega
      · push_cast
        omega
    · obtain rfl : k = 0 := by omega
      have fields := ofBits_of_fields 0 0 n (by norm_num) (by norm_num) (by omega)
      rw [show 0 * 2 ^ 63 + 0 * 2 ^ 52 + n = 0 * 2 ^ 52 + n by omega] at fields
      rw [fields, Reading.ofFields, if_neg (by norm_num), if_pos rfl]
      simp

/-! ## Rounding a quotient -/

/-- The significand is at most half a unit away, whichever side the unit is divided out on. -/
theorem significand_close (num : ℕ) {den : ℕ} (pos : 0 < den) (t : ℤ) :
    |((if 0 ≤ t then divRound num (den * 2 ^ t.toNat)
      else divRound (num * 2 ^ (-t).toNat) den : ℕ) : ℝ) - num / den / 2 ^ t| ≤ 1 / 2 := by
  split_ifs with sign
  · obtain ⟨k, rfl⟩ := Int.eq_ofNat_of_zero_le sign
    have close := divRound_close num (show 0 < den * 2 ^ k by positivity)
    rwa [Nat.cast_mul, Nat.cast_pow, Nat.cast_ofNat, ← div_div, ← zpow_natCast] at close
  · obtain ⟨k, rfl⟩ : ∃ k : ℕ, t = -k := ⟨(-t).toNat, by omega⟩
    rw [neg_neg, Int.toNat_natCast, zpow_neg, zpow_natCast, div_inv_eq_mul, div_mul_eq_mul_div]
    have close := divRound_close (num * 2 ^ k) pos
    rwa [Nat.cast_mul, Nat.cast_pow, Nat.cast_ofNat] at close

/-- A significand that is rounded up to one more bit has the same place and the same bits at the
next exponent. -/
theorem carry {n : ℕ} {t : ℤ} (small : n ≤ 2 ^ 53) (least : -1074 ≤ t)
    (normal : t = -1074 ∨ 2 ^ 52 ≤ n) :
    ∃ n' t', (t + 1074).toNat * 0x10000000000000 + n =
        (t' + 1074).toNat * 0x10000000000000 + n' ∧
      (n' : ℝ) * 2 ^ t' = n * 2 ^ t ∧ (Reading.finite false n' t').Canonical := by
  rcases small.lt_or_eq with less | rfl
  · exact ⟨n, t, rfl, rfl, less, least, normal⟩
  · refine ⟨2 ^ 52, t + 1, by omega, ?_, by norm_num, by omega, .inr le_rfl⟩
    rw [zpow_add_one₀ (by norm_num)]
    push_cast
    ring

/-- In units of its last bit a positive quotient has 53 bits, or fewer at the least unit. -/
theorem quotient_bits {num den : ℕ} (hn : 0 < num) (hd : 0 < den) {t : ℤ}
    (unit : t = max (log2Quotient num den - 52) (-1074)) :
    (num : ℝ) / den / 2 ^ t < 2 ^ 53 ∧ (t = -1074 ∨ 2 ^ 52 ≤ (num : ℝ) / den / 2 ^ t) := by
  obtain ⟨low, high⟩ := log2Quotient_bounds hn hd
  have upper : (num : ℝ) / den / 2 ^ t < 2 ^ (53 : ℤ) := by
    rw [div_lt_iff₀ (two_zpow_pos t), ← zpow_add₀ (by norm_num)]
    exact high.trans_le (zpow_le_zpow_right₀ (by norm_num) (by omega))
  have normal : t = -1074 ∨ 2 ^ (52 : ℤ) ≤ (num : ℝ) / den / 2 ^ t := by
    refine or_iff_not_imp_left.2 fun above => ?_
    rw [le_div_iff₀ (two_zpow_pos t), ← zpow_add₀ (by norm_num)]
    exact le_trans (zpow_le_zpow_right₀ (by norm_num) (by omega)) low
  exact ⟨by exact_mod_cast upper, by exact_mod_cast normal⟩

/-- The double nearest to a positive quotient is its rounded significand in units of its last bit,
short of the infinities. -/
theorem place_nearest {num den : ℕ} (hn : 0 < num) (hd : 0 < den) {t : ℤ}
    (unit : t = max (log2Quotient num den - 52) (-1074)) :
    IsNumber (nearest false num den) ∧ place (nearest false num den) =
      min (((if 0 ≤ t then divRound num (den * 2 ^ t.toNat)
        else divRound (num * 2 ^ (-t).toNat) den : ℕ) : ℝ) * 2 ^ t) limit := by
  have close := significand_close num hd t
  obtain ⟨upper, normal⟩ := quotient_bits hn hd unit
  simp only [nearest, signed, Bool.false_eq_true, if_false, beq_iff_eq, hn.ne', ← unit]
  generalize (if 0 ≤ t then divRound num (den * 2 ^ t.toNat)
    else divRound (num * 2 ^ (-t).toNat) den) = n at close ⊢
  obtain ⟨small, full⟩ := rounded_bits close upper normal
  obtain ⟨n', t', bits, same, canonical⟩ := carry small (by omega) full
  rw [bits]
  have result := place_packed canonical
  rw [← read_bits canonical, signum_false, one_mul, same] at result
  exact ⟨result.2, result.1⟩

theorem rounds_nearest_of_pos {num den : ℕ} (hn : 0 < num) (hd : 0 < den) :
    Rounds (num / den) (nearest false num den) := by
  obtain ⟨number, value⟩ := place_nearest hn hd rfl
  refine ⟨number, fun g grid => ?_⟩
  rw [value]
  exact nearest_clipped (significand_close num hd _) (quotient_bits hn hd rfl).2 grid

/-- **`rounds_nearest`**: what `nearest` makes of a quotient rounds it. -/
theorem rounds_nearest {den : ℕ} (pos : 0 < den) (negative : Bool) (num : ℕ) :
    Rounds (signum negative * (num / den)) (nearest negative num den) := by
  have unsigned : Rounds (num / den) (nearest false num den) := by
    rcases Nat.eq_zero_or_pos num with rfl | hn
    · have zero := Rounds.refl isFinite_zero.isNumber
      simpa [nearest, signed] using zero
    · exact rounds_nearest_of_pos hn pos
  cases negative with
  | false => simpa using unsigned
  | true =>
    have flipped : nearest true num den = -nearest false num den := by
      simp [nearest, signed]
    rw [flipped, signum_true, neg_one_mul]
    exact unsigned.neg

/-! ## Integers as doubles -/

theorem rounds_ofNat (n : ℕ) : Rounds n (ofNat n) := by
  simpa [ofNat] using rounds_nearest one_pos false n

theorem isFinite_ofNat {n : ℕ} (word : n ≤ 2 ^ 63) : IsFinite (ofNat n) := by
  have word' : (n : ℝ) ≤ 2 ^ (63 : ℤ) := by exact_mod_cast word
  exact (rounds_ofNat n).isFinite (Nat.cast_nonneg n)
    (word'.trans (zpow_le_zpow_right₀ (by norm_num) (by norm_num)))

@[simp] theorem place_ofNat_zero : place (ofNat 0) = 0 := by
  have zero := (rounds_ofNat 0).eq (by simpa using grid_zero)
  rw [zero, Nat.cast_zero]

theorem one_le_place_ofNat {n : ℕ} (pos : 0 < n) : 1 ≤ place (ofNat n) :=
  (rounds_ofNat n).ge grid_one (by exact_mod_cast pos)

theorem abs_ofInt (i : ℤ) : IsNumber (ofInt i).abs ∧ place (ofInt i).abs = place (ofNat i.natAbs) := by
  have rounds := rounds_nearest one_pos (i < 0) i.natAbs
  refine ⟨isNumber_abs.2 rounds.isNumber, ?_⟩
  have unsigned : |place (ofInt i)| = |place (ofNat i.natAbs)| := by
    unfold ofInt ofNat nearest signed
    split_ifs <;> simp_all [place_neg]
  rw [place_abs, unsigned, abs_of_nonneg ((rounds_ofNat _).nonneg (Nat.cast_nonneg _))]

theorem place_ofNat_max (m n : ℕ) :
    place (ofNat (max m n)) = max (place (ofNat m)) (place (ofNat n)) := by
  have ordered {a b : ℕ} (le : a ≤ b) : place (ofNat a) ≤ place (ofNat b) := by
    rcases le.lt_or_eq with less | rfl
    · exact (rounds_ofNat a).mono (rounds_ofNat b) (by exact_mod_cast less)
    · exact le_rfl
  rcases le_total m n with le | le
  · rw [max_eq_right le, max_eq_right (ordered le)]
  · rw [max_eq_left le, max_eq_left (ordered le)]

theorem le_two_mul_ofNat {n : ℕ} (small : n ≤ 2 ^ 63) : (n : ℝ) ≤ 2 * place (ofNat n) := by
  rcases Nat.eq_zero_or_pos n with rfl | pos
  · simp
  · have bits : n.log2 < 64 := (Nat.log2_lt pos.ne').2 (by omega)
    have low : (2 : ℝ) ^ (n.log2 : ℤ) ≤ n := by exact_mod_cast Nat.log2_self_le pos.ne'
    have high : (n : ℝ) < 2 * 2 ^ (n.log2 : ℤ) := by
      rw [← zpow_one_add₀ (by norm_num), add_comm]
      exact_mod_cast Nat.lt_log2_self (n := n)
    have near := (rounds_ofNat n).ge (grid_zpow (by omega) (by omega)) low
    linarith

/-! ## Logarithms -/

theorem fixedOne_eq : fixedOne = 2 ^ 160 := by decide

theorem fixedMul_mono {a a' b b' : ℕ} (ha : a ≤ a') (hb : b ≤ b') :
    fixedMul a b ≤ fixedMul a' b' := by
  unfold fixedMul
  rw [Nat.shiftRight_eq_div_pow, Nat.shiftRight_eq_div_pow]
  exact Nat.div_le_div_right (Nat.mul_le_mul ha hb)

theorem atanhSeries_le {w c : ℕ} (room : fixedOne + fixedMul w c ≤ c) (terms odd : ℕ) :
    atanhSeries w terms odd ≤ c := by
  have first (n : ℕ) : fixedOne / n ≤ fixedOne := Nat.div_le_self _ _
  induction terms generalizing odd with
  | zero => exact (first odd).trans (by omega)
  | succ terms ih =>
    have rest : fixedMul w (atanhSeries w terms (odd + 2)) ≤ fixedMul w c :=
      fixedMul_mono le_rfl (ih _)
    have := first odd
    rw [atanhSeries]
    omega

/-- The logarithm of a fixed-point number is about twice the argument of its series. -/
theorem natAbs_fixedLn_le {y z c : ℕ} (room : fixedOne + fixedMul (fixedMul z z) c ≤ c)
    (argument : (((y : ℤ) - fixedOne).natAbs <<< fixedBits) / (y + fixedOne) ≤ z) :
    (fixedLn y).natAbs ≤ 2 * fixedMul z c := by
  unfold fixedLn
  dsimp only
  generalize (((y : ℤ) - fixedOne).natAbs <<< fixedBits) / (y + fixedOne) = a at argument ⊢
  have square : fixedMul (fixedMul a a) c ≤ fixedMul (fixedMul z z) c :=
    fixedMul_mono (fixedMul_mono argument argument) le_rfl
  have size : fixedMul a (atanhSeries (fixedMul a a) 34 1) ≤ fixedMul z c :=
    fixedMul_mono argument (atanhSeries_le (by omega) _ _)
  split_ifs <;> omega

/-- The argument of the series is small for what is close to one. -/
theorem argument_le {y d s z : ℕ} (near : ((y : ℤ) - fixedOne).natAbs ≤ d) (far : s ≤ y + fixedOne)
    (ratio : d * fixedOne ≤ z * s) :
    (((y : ℤ) - fixedOne).natAbs <<< fixedBits) / (y + fixedOne) ≤ z := by
  refine Nat.div_le_of_le_mul ?_
  rw [Nat.shiftLeft_eq, fixedBits, ← fixedOne_eq]
  calc ((y : ℤ) - fixedOne).natAbs * fixedOne ≤ d * fixedOne := Nat.mul_le_mul_right _ near
    _ ≤ z * s := ratio
    _ ≤ (y + fixedOne) * z := by
        rw [Nat.mul_comm]
        exact Nat.mul_le_mul_right _ far

theorem fixedLn_bounds_of_ge {y : ℕ} (low : fixedOne ≤ y) (high : 2 * y ≤ 3 * fixedOne) :
    0 ≤ fixedLn y ∧ fixedLn y ≤ fixedLn2 := by
  have sign : 0 ≤ fixedLn y := by
    simp only [fixedLn, if_neg (not_lt.2 low)]
    omega
  have argument := argument_le (y := y) (d := fixedOne / 2) (s := 2 * fixedOne)
    (z := fixedOne / 4) (by omega) (by omega) (by decide)
  have size := natAbs_fixedLn_le (c := fixedOne + fixedOne / 10) (by decide) argument
  have ln2 : 2 * fixedMul (fixedOne / 4) (fixedOne + fixedOne / 10) ≤ fixedLn2 := by decide
  omega

theorem fixedLn_bounds_of_lt {y : ℕ} (low : 3 * fixedOne ≤ 4 * y) (high : y < fixedOne) :
    -(fixedLn2 : ℤ) ≤ fixedLn y ∧ fixedLn y ≤ 0 := by
  have sign : fixedLn y ≤ 0 := by
    simp only [fixedLn, if_pos high]
    omega
  have argument := argument_le (y := y) (d := fixedOne / 4) (s := 7 * (fixedOne / 4))
    (z := fixedOne / 7 + 1) (by rw [fixedOne_eq] at *; omega) (by rw [fixedOne_eq] at *; omega)
    (by decide)
  have size := natAbs_fixedLn_le (c := fixedOne + fixedOne / 10) (by decide) argument
  have ln2 : 2 * fixedMul (fixedOne / 7 + 1) (fixedOne + fixedOne / 10) ≤ fixedLn2 := by decide
  omega

/-- A natural number, moved to have its first bit at the place of one. -/
theorem aligned_bounds {s : ℕ} (pos : 0 < s) (top : s.log2 ≤ fixedBits) :
    fixedOne ≤ s <<< (fixedBits - s.log2) ∧ s <<< (fixedBits - s.log2) < 2 * fixedOne := by
  have one : fixedOne = 2 ^ s.log2 * 2 ^ (fixedBits - s.log2) := by
    rw [fixedOne_eq, ← pow_add, Nat.add_sub_cancel' top, fixedBits]
  rw [Nat.shiftLeft_eq, one]
  constructor
  · exact Nat.mul_le_mul_right _ (Nat.log2_self_le pos.ne')
  · calc s * 2 ^ (fixedBits - s.log2) < 2 ^ (s.log2 + 1) * 2 ^ (fixedBits - s.log2) :=
          Nat.mul_lt_mul_of_pos_right Nat.lt_log2_self (by positivity)
      _ = 2 * (2 ^ s.log2 * 2 ^ (fixedBits - s.log2)) := by ring

/-- A positive finite double has a significand with a first bit. -/
theorem read_of_pos {x : Float} (finite : IsFinite x) (positive : 0 < place x) :
    ∃ s e, read x = .finite false s e ∧ 0 < s ∧ s.log2 < 53 ∧ e ≤ 971 := by
  obtain ⟨negative, s, e, reading⟩ := finite
  have canonical := canonical_read x
  have bounded := bounded_read x
  rw [reading] at canonical bounded
  rw [place, reading, Reading.place] at positive
  have size : (0 : ℝ) ≤ s * 2 ^ e := by positivity
  obtain rfl : negative = false := by
    cases negative with
    | false => rfl
    | true =>
      rw [signum_true] at positive
      linarith
  have pos : 0 < s := by
    rcases Nat.eq_zero_or_pos s with rfl | pos
    · norm_num at positive
    · exact pos
  exact ⟨s, e, reading, pos, (Nat.log2_lt pos.ne').2 canonical.1, bounded⟩

/-- The first bit of a significand tells which powers of two the double is between. -/
theorem place_bits {x : Float} {s : ℕ} {e : ℤ} (reading : read x = .finite false s e) (pos : 0 < s) :
    (2 : ℝ) ^ (e + s.log2) ≤ place x ∧ place x < 2 ^ (e + s.log2 + 1) := by
  have low : (2 : ℝ) ^ (s.log2 : ℤ) ≤ s := by exact_mod_cast Nat.log2_self_le pos.ne'
  have high : (s : ℝ) < 2 ^ ((s.log2 : ℤ) + 1) := by exact_mod_cast Nat.lt_log2_self (n := s)
  rw [place, reading, Reading.place, signum_false, one_mul, add_assoc, add_comm e,
    add_comm e, zpow_add₀ (by norm_num), zpow_add₀ (by norm_num) (_ + 1)]
  exact ⟨mul_le_mul_of_nonneg_right low (two_zpow_pos e).le,
    mul_lt_mul_of_pos_right high (two_zpow_pos e)⟩

/-- The fixed-point logarithm of a positive double is between those of the powers of two around it,
and up to three halves of the lower one it is that plus the logarithm of what is left. -/
theorem ln_eq_nearest {x : Float} {s : ℕ} {e : ℤ} (reading : read x = .finite false s e)
    (pos : 0 < s) (top : s.log2 < 53) :
    ∃ l : ℤ, ln x = nearest (l < 0) l.natAbs fixedOne ∧ (e + s.log2) * fixedLn2 ≤ l ∧
      l ≤ (e + s.log2 + 1) * fixedLn2 ∧
      (2 * (s <<< (fixedBits - s.log2)) ≤ 3 * fixedOne →
        l = (e + s.log2) * fixedLn2 + fixedLn (s <<< (fixedBits - s.log2))) := by
  obtain ⟨low, high⟩ := aligned_bounds pos (show s.log2 ≤ fixedBits by simp [fixedBits]; omega)
  simp only [ln, reading, beq_iff_eq, pos.ne', if_false, Bool.false_eq_true]
  split_ifs with above
  · obtain ⟨low', high'⟩ := fixedLn_bounds_of_lt (y := (s <<< (fixedBits - s.log2)) >>> 1)
      (by rw [fixedOne_eq] at *; omega) (by omega)
    refine ⟨_, rfl, ?_, ?_, fun within => ?_⟩
    · dsimp only
      linarith
    · dsimp only
      linarith
    · rw [fixedOne_eq] at *
      omega
  · obtain ⟨low', high'⟩ := fixedLn_bounds_of_ge low (by omega)
    refine ⟨_, rfl, ?_, ?_, fun _ => rfl⟩
    · dsimp only
      linarith
    · dsimp only
      linarith

theorem rounds_fixed {x : Float} {l : ℤ} (value : ln x = nearest (l < 0) l.natAbs fixedOne) :
    Rounds (l / fixedOne) (ln x) := by
  have pos : 0 < fixedOne := by
    rw [fixedOne_eq]
    positivity
  have rounds := rounds_nearest pos (l < 0) l.natAbs
  rw [← value] at rounds
  convert rounds using 1
  have size : ((l.natAbs : ℕ) : ℝ) = |(l : ℝ)| := by
    rw [Nat.cast_natAbs, Int.cast_abs]
  rw [size]
  by_cases negative : l < 0
  · rw [decide_eq_true negative, signum_true, abs_of_neg (by exact_mod_cast negative)]
    ring
  · rw [decide_eq_false negative, signum_false, one_mul,
      abs_of_nonneg (by exact_mod_cast not_lt.1 negative)]

/-- **`ln_bounds`**: the logarithm of a finite double that is at least one is a number, and neither
negative nor large. -/
theorem ln_bounds {x : Float} (finite : IsFinite x) (one : 1 ≤ place x) :
    IsNumber (ln x) ∧ 0 ≤ place (ln x) ∧ place (ln x) ≤ 2 ^ 10 := by
  obtain ⟨s, e, reading, pos, top, last⟩ := read_of_pos finite (by linarith)
  obtain ⟨l, value, low, high, -⟩ := ln_eq_nearest reading pos top
  have order : 0 ≤ e + s.log2 := by
    have above := one.trans_lt (place_bits reading pos).2
    rw [← zpow_zero (2 : ℝ)] at above
    have := (zpow_lt_zpow_iff_right₀ (by norm_num)).1 above
    omega
  have ln2 : (0 : ℤ) ≤ fixedLn2 ∧ (fixedLn2 : ℤ) ≤ fixedOne := by decide
  have nonneg : 0 ≤ l := le_trans (mul_nonneg order ln2.1) low
  have most : l ≤ 1024 * fixedOne :=
    high.trans (mul_le_mul (by omega) ln2.2 ln2.1 (by norm_num))
  have unit : (0 : ℝ) < fixedOne := by
    rw [fixedOne_eq]
    positivity
  have rounds := rounds_fixed value
  refine ⟨rounds.isNumber, rounds.nonneg (div_nonneg (by exact_mod_cast nonneg) unit.le),
    rounds.le ?_ ?_⟩
  · exact_mod_cast grid_zpow (k := 10) (by norm_num) (by norm_num)
  · rw [div_le_iff₀ unit]
    exact_mod_cast most

end PrivateQuery.Binary64
