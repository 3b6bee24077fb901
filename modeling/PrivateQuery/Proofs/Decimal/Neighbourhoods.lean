import PrivateQuery.Decimal.Digits
import PrivateQuery.Proofs.Binary64.Special
import PrivateQuery.Proofs.Decimal.Numerals

/-!
# Neighbourhoods of doubles

The neighbourhood of a positive double reaches half of its last bit to either side, and a quarter down
from a power of two; its ends belong to it if the significand is even. Every quotient in it is rounded
to the double, bit for bit (`nearest_of_holds`).
-/
namespace PrivateQuery.Decimal

open Binary64

/-- A number in a neighbourhood, given a quarter of the unit in the last place. -/
def Neighbourhood.Holds (n : Neighbourhood) (quarter v : ℝ) : Prop :=
  (n.low * quarter < v ∨ n.closed = true ∧ n.low * quarter = v) ∧
    (v < n.high * quarter ∨ n.closed = true ∧ v = n.high * quarter)

/-! ## Bits -/

/-- The bits of a positive double are its significand above its exponent. -/
theorem toBits_of_read {x : Float} {m : ℕ} {e : ℤ} (reading : read x = .finite false m e) :
    x.toBits.toNat = (e + 1074).toNat * 2 ^ 52 + m := by
  have bound := x.toBits.toNat_lt
  rw [read_eq_ofBits, Reading.ofBits, Reading.ofFields] at reading
  split_ifs at reading with full round empty
  · simp only [Reading.finite.injEq, beq_eq_false_iff_ne] at reading
    omega
  · simp only [Reading.finite.injEq, beq_eq_false_iff_ne] at reading
    omega

theorem eq_of_place_eq {x y : Float} {m : ℕ} {e : ℤ} (reading : read x = .finite false m e)
    (positive : 0 < m) (finite : IsFinite y) (same : place y = place x) : y = x := by
  have place_x : place x ≠ 0 := by
    rw [place, reading, Reading.place, signum_false, one_mul]
    positivity
  have unpacked := unpack_of_place_eq finite ⟨_, _, _, reading⟩ same (same ▸ place_x)
  have readingY : read y = .finite false m e := by
    rw [read_eq_ofUnpacked, unpacked, ← read_eq_ofUnpacked, reading]
  rw [← Float.ofBits_toBits y, ← Float.ofBits_toBits x,
    UInt64.toNat_inj.1 ((toBits_of_read readingY).trans (toBits_of_read reading).symm)]

/-! ## Rounded division -/

theorem divRound_eq {num den m : ℕ} (pos : 0 < den) (close : |(num : ℝ) / den - m| ≤ 1 / 2)
    (tie : |(num : ℝ) / den - m| = 1 / 2 → m % 2 = 0) : divRound num den = m := by
  have pos' : (0 : ℝ) < den := by exact_mod_cast pos
  -- The same in naturals: twice the distance is at most the divisor.
  have scaled : (num : ℝ) / den - m = (num - den * m) / den := by field_simp
  rw [scaled, abs_div, abs_of_pos pos', div_le_div_iff₀ pos' two_pos] at close
  rw [scaled, abs_div, abs_of_pos pos', div_eq_div_iff pos'.ne' two_ne_zero] at tie
  obtain ⟨low, high⟩ : 2 * (den * m) ≤ 2 * num + den ∧ 2 * num ≤ 2 * (den * m) + den := by
    obtain ⟨low, high⟩ := abs_le.1 (show |(num : ℝ) - den * m| ≤ den / 2 by linarith)
    constructor
    · exact_mod_cast (show 2 * ((den : ℝ) * m) ≤ 2 * num + den by linarith)
    · exact_mod_cast (show 2 * (num : ℝ) ≤ 2 * (den * m) + den by linarith)
  have even (half : 2 * (den * m) = 2 * num + den ∨ 2 * num = 2 * (den * m) + den) :
      m % 2 = 0 := by
    refine tie ?_
    rcases half with half | half
    · have half' : 2 * ((den : ℝ) * m) = 2 * num + den := by exact_mod_cast half
      rw [abs_of_nonpos (by linarith)]
      linarith
    · have half' : 2 * (num : ℝ) = 2 * (den * m) + den := by exact_mod_cast half
      rw [abs_of_nonneg (by linarith)]
      linarith
  have parts := Nat.div_add_mod num den
  have less := Nat.mod_lt num pos
  unfold divRound
  dsimp only
  generalize num / den = q at parts ⊢
  generalize num % den = r at parts less ⊢
  -- The natural is the quotient or the one after it.
  obtain rfl | rfl : m = q ∨ m = q + 1 := by
    rcases lt_trichotomy m q with under | rfl | above
    · nlinarith
    · exact .inl rfl
    · rcases Nat.lt_or_ge (q + 1) m with far | near
      · nlinarith
      · omega
  · split_ifs <;> omega
  · rw [Nat.mul_succ] at low high even
    split_ifs <;> omega

theorem significand_eq {num den m : ℕ} (pos : 0 < den) {t : ℤ}
    (close : |(num : ℝ) / den / 2 ^ t - m| ≤ 1 / 2)
    (tie : |(num : ℝ) / den / 2 ^ t - m| = 1 / 2 → m % 2 = 0) :
    (if 0 ≤ t then divRound num (den * 2 ^ t.toNat)
      else divRound (num * 2 ^ (-t).toNat) den) = m := by
  split_ifs with sign
  · obtain ⟨k, rfl⟩ := Int.eq_ofNat_of_zero_le sign
    have unit : ((den * 2 ^ k : ℕ) : ℝ) = den * 2 ^ (k : ℤ) := by push_cast; rfl
    refine divRound_eq (show 0 < den * 2 ^ k by positivity) ?_ ?_
    · rwa [Int.toNat_natCast, unit, ← div_div]
    · rwa [Int.toNat_natCast, unit, ← div_div]
  · obtain ⟨k, rfl⟩ : ∃ k : ℕ, t = -k := ⟨(-t).toNat, by omega⟩
    have unit : (num : ℝ) / den / 2 ^ (-(k : ℤ)) = ((num * 2 ^ k : ℕ) : ℝ) / den := by
      rw [zpow_neg, zpow_natCast, div_inv_eq_mul, div_mul_eq_mul_div]
      push_cast
      rfl
    rw [neg_neg, Int.toNat_natCast]
    rw [unit] at close tie
    exact divRound_eq pos close tie

/-! ## Rounding to the double -/

section Nearest

variable {x : Float} {m num den : ℕ} {e : ℤ} {v : ℝ}

theorem Neighbourhood.bounds (positive : 0 < m)
    (holds : (Neighbourhood.of m e).Holds (2 ^ (e - 2)) v) :
    |v / 2 ^ e - m| ≤ 1 / 2 ∧ (|v / 2 ^ e - m| = 1 / 2 → m % 2 = 0) ∧
      (m = 2 ^ 52 → -1074 < e → (m : ℝ) - 1 / 4 ≤ v / 2 ^ e) := by
  have unit : (0 : ℝ) < 2 ^ e := two_zpow_pos e
  have quarter : (2 : ℝ) ^ (e - 2) = 2 ^ e / 4 := by
    rw [zpow_sub₀ two_ne_zero]
    norm_num
  obtain ⟨w, rfl⟩ : ∃ w, v = w * 2 ^ e := ⟨v / 2 ^ e, (div_mul_cancel₀ _ unit.ne').symm⟩
  have scaled (n : ℕ) : (n : ℝ) * (2 ^ e / 4) = n / 4 * 2 ^ e := by ring
  rw [Neighbourhood.Holds, quarter, scaled, scaled, mul_lt_mul_iff_left₀ unit,
    mul_lt_mul_iff_left₀ unit, mul_left_inj' unit.ne', mul_left_inj' unit.ne'] at holds
  rw [mul_div_cancel_right₀ _ unit.ne']
  obtain ⟨lower, upper⟩ := holds
  obtain ⟨gap, gap_eq⟩ : ∃ gap,
      gap = if m == 0x10000000000000 && decide (-1074 < e) then 1 else 2 := ⟨_, rfl⟩
  have low : ((Neighbourhood.of m e).low : ℝ) = 4 * m - gap := by
    rw [Neighbourhood.of, ← gap_eq, Nat.cast_sub (by split_ifs at gap_eq <;> omega)]
    push_cast
    rfl
  have high : ((Neighbourhood.of m e).high : ℝ) = 4 * m + 2 := by
    rw [Neighbourhood.of]
    push_cast
    rfl
  have closed : (Neighbourhood.of m e).closed = true ↔ m % 2 = 0 := by simp [Neighbourhood.of]
  rw [low, closed] at lower
  rw [high, closed] at upper
  have upper' : w ≤ m + 1 / 2 := by rcases upper with less | ⟨-, same⟩ <;> linarith
  have lower' : (m : ℝ) - gap / 4 ≤ w := by rcases lower with less | ⟨-, same⟩ <;> linarith
  have gap_le : (gap : ℝ) ≤ 2 := by exact_mod_cast show gap ≤ 2 by split_ifs at gap_eq <;> omega
  refine ⟨abs_le.2 ⟨by linarith, by linarith⟩, fun half => ?_, fun power above => ?_⟩
  · rcases lower with less | ⟨even, -⟩
    · rcases upper with less' | ⟨even, -⟩
      · have strict : |w - m| < 1 / 2 := abs_lt.2 ⟨by linarith, by linarith⟩
        linarith
      · exact even
    · exact even
  · rw [if_pos (by simp [power, above])] at gap_eq
    rw [gap_eq] at lower'
    push_cast at lower'
    exact lower'

theorem pos_of_holds (positive : 0 < m)
    (holds : (Neighbourhood.of m e).Holds (2 ^ (e - 2)) ((num : ℝ) / den)) : 0 < num := by
  rcases Nat.eq_zero_or_pos num with rfl | pos
  · obtain ⟨near, -⟩ := Neighbourhood.bounds positive holds
    have one_le : (1 : ℝ) ≤ m := by exact_mod_cast positive
    rw [Nat.cast_zero, zero_div, zero_div] at near
    linarith [(abs_le.1 near).1]
  · exact pos

/-- A quotient in the neighbourhood has the unit of the double, or half of it below a power of two. -/
theorem unit_of_holds (reading : read x = .finite false m e) (positive : 0 < m) (hd : 0 < den)
    (holds : (Neighbourhood.of m e).Holds (2 ^ (e - 2)) ((num : ℝ) / den)) :
    max (log2Quotient num den - 52) (-1074) = e ∨
      m = 2 ^ 52 ∧ (m : ℝ) - 1 / 4 ≤ num / den / 2 ^ e ∧ (num : ℝ) / den / 2 ^ e < m ∧
        max (log2Quotient num den - 52) (-1074) = e - 1 := by
  obtain ⟨near, -, fine⟩ := Neighbourhood.bounds positive holds
  have canonical := canonical_read x
  rw [reading] at canonical
  obtain ⟨small, least, normal⟩ := canonical
  have unit : (0 : ℝ) < 2 ^ e := two_zpow_pos e
  have most : (m : ℝ) + 1 ≤ 2 ^ (53 : ℤ) := by exact_mod_cast small
  obtain ⟨low, high⟩ := abs_le.1 near
  obtain ⟨below, above⟩ := log2Quotient_bounds (pos_of_holds positive holds) hd
  generalize log2Quotient num den = order at below above
  have order_lt {k : ℤ} (less : (num : ℝ) / den / 2 ^ e < 2 ^ k) : order < e + k := by
    refine (zpow_lt_zpow_iff_right₀ (one_lt_two (α := ℝ))).1 (below.trans_lt ?_)
    rwa [add_comm, zpow_add₀ two_ne_zero, ← div_lt_iff₀ unit]
  have order_ge {k : ℤ} (full : (2 : ℝ) ^ k ≤ num / den / 2 ^ e) : e + k < order + 1 := by
    refine (zpow_lt_zpow_iff_right₀ (one_lt_two (α := ℝ))).1 (lt_of_le_of_lt ?_ above)
    rwa [add_comm, zpow_add₀ two_ne_zero, ← le_div_iff₀ unit]
  have top : order < e + 53 := order_lt (by linarith)
  by_cases full : (2 : ℝ) ^ (52 : ℤ) ≤ num / den / 2 ^ e
  · have bottom := order_ge full
    exact .inl (by omega)
  by_cases last : e = -1074
  · exact .inl (by omega)
  · rw [not_le] at full
    have power : m = 2 ^ 52 := by
      refine le_antisymm (Nat.lt_succ_iff.1 ?_) (normal.resolve_left last)
      have less : (m : ℝ) < 2 ^ (52 : ℤ) + 1 := by linarith
      exact_mod_cast less
    have close := fine power (by omega)
    have bottom : e + 51 < order + 1 := by
      refine order_ge ?_
      rw [power] at close
      norm_num at close ⊢
      linarith
    have top' := order_lt full
    refine .inr ⟨power, close, ?_, by omega⟩
    rw [power]
    exact_mod_cast full

/-- **`nearest_of_holds`**: a quotient in the neighbourhood of a positive double is rounded to it. -/
theorem nearest_of_holds (reading : read x = .finite false m e) (positive : 0 < m) (hd : 0 < den)
    (holds : (Neighbourhood.of m e).Holds (2 ^ (e - 2)) ((num : ℝ) / den)) :
    nearest false num den = x := by
  obtain ⟨near, tie, -⟩ := Neighbourhood.bounds positive holds
  obtain ⟨number, value⟩ := place_nearest (pos_of_holds positive holds) hd rfl
  have units := unit_of_holds reading positive hd holds
  generalize max (log2Quotient num den - 52) (-1074) = t at units value
  have same : ∃ n : ℕ, (n : ℝ) * 2 ^ t = m * 2 ^ e ∧ (if 0 ≤ t then divRound num (den * 2 ^ t.toNat)
      else divRound (num * 2 ^ (-t).toNat) den) = n := by
    rcases units with rfl | ⟨power, close, less, rfl⟩
    · exact ⟨m, rfl, significand_eq hd near tie⟩
    · -- Below a power of two the significand is rounded up to one more bit.
      have half : (2 : ℝ) ^ (e - 1) = 2 ^ e / 2 := by
        rw [zpow_sub_one₀ two_ne_zero, div_eq_mul_inv]
      rw [power] at close less
      refine ⟨2 ^ 53, ?_, significand_eq hd ?_ fun _ => by norm_num⟩
      · rw [power, half]
        push_cast
        ring
      · rw [half, div_div_eq_mul_div, mul_div_right_comm, abs_le]
        norm_num at close less ⊢
        constructor <;> linarith
  obtain ⟨n, product, significand⟩ := same
  have bounded := bounded_read x
  have canonical := canonical_read x
  rw [reading] at bounded canonical
  have short : (m : ℝ) * 2 ^ e < limit := magnitude_lt_limit canonical.1 bounded
  have place_x : place x = m * 2 ^ e := by
    rw [place, reading, Reading.place, signum_false, one_mul]
  rw [significand, product, min_eq_left short.le, ← place_x] at value
  refine eq_of_place_eq reading positive (number.isFinite ?_) value
  rw [value, place_x, abs_of_nonneg (by positivity)]
  exact short

/-- What is in the neighbourhood of a positive double is rounded to neither zero nor an infinity. -/
theorem Neighbourhood.within {y : Float} (reading : read x = .finite false m e) (positive : 0 < m)
    (holds : (Neighbourhood.of m e).Holds (2 ^ (e - 2)) v) (rounds : Rounds v y) :
    0 < place y ∧ place y < limit := by
  obtain ⟨near, tie, -⟩ := Neighbourhood.bounds positive holds
  have canonical := canonical_read x
  have bounded := bounded_read x
  have grid := grid_place x
  rw [reading] at canonical bounded
  rw [place, reading, Reading.place, signum_false, one_mul] at grid
  have unit : (0 : ℝ) < 2 ^ e := two_zpow_pos e
  have nearer := rounds.2 _ grid
  obtain ⟨w, rfl⟩ : ∃ w, v = w * 2 ^ e := ⟨v / 2 ^ e, (div_mul_cancel₀ _ unit.ne').symm⟩
  rw [mul_div_cancel_right₀ _ unit.ne'] at near tie
  have distance : |place y - w * 2 ^ e| ≤ 1 / 2 * 2 ^ e := by
    refine nearer.trans ?_
    rw [← sub_mul, abs_mul, abs_of_pos unit, abs_sub_comm]
    exact mul_le_mul_of_nonneg_right near unit.le
  obtain ⟨low, high⟩ := abs_le.1 near
  obtain ⟨low', high'⟩ := abs_le.1 distance
  obtain ⟨k, place_y⟩ : ∃ k, place y = k * 2 ^ e :=
    ⟨place y / 2 ^ e, (div_mul_cancel₀ _ unit.ne').symm⟩
  rw [place_y] at low' high' ⊢
  have low'' : w - k ≤ 1 / 2 := by nlinarith
  have high'' : k - w ≤ 1 / 2 := by nlinarith
  -- One of them is a whole unit away only from a half, and only if the other is even.
  constructor
  · by_contra! none
    have nonpos : k ≤ 0 := by nlinarith
    have one : m = 1 := by
      have : (m : ℝ) ≤ 1 := by linarith
      exact le_antisymm (by exact_mod_cast this) positive
    subst one
    push_cast at *
    have := tie (by rw [abs_of_nonpos (by linarith)]; linarith)
    omega
  · by_contra! huge
    obtain ⟨small, -, -⟩ := canonical
    have last : (2 : ℝ) ^ (53 : ℤ) * 2 ^ e ≤ k * 2 ^ e := by
      refine le_trans ?_ huge
      rw [← zpow_add₀ two_ne_zero]
      exact zpow_le_zpow_right₀ one_le_two (by simp only [Reading.Bounded] at bounded; omega)
    have full : (2 : ℝ) ^ (53 : ℤ) ≤ k := le_of_mul_le_mul_right last unit
    have most : m + 1 = 2 ^ 53 := by
      have : (2 : ℝ) ^ (53 : ℤ) ≤ m + 1 := by linarith
      exact le_antisymm small (by exact_mod_cast this)
    have most' : (m : ℝ) + 1 = 2 ^ (53 : ℤ) := by exact_mod_cast most
    have := tie (by rw [abs_of_nonneg (by linarith)]; linarith)
    omega

/-- **`toFloat_of_holds`**: a decimal in the neighbourhood of a positive double becomes it. -/
theorem toFloat_of_holds {digits : ℕ} {exponent : ℤ} (reading : read x = .finite false m e)
    (positive : 0 < m)
    (holds : (Neighbourhood.of m e).Holds (2 ^ (e - 2)) ((digits : ℝ) * 10 ^ exponent)) :
    toFloat false digits exponent = x := by
  obtain ⟨above, below⟩ := Neighbourhood.within reading positive holds
    (rounds_toFloat_unsigned digits exponent)
  unfold toFloat at above below ⊢
  dsimp only at above below ⊢
  split_ifs at above below ⊢ with small large integral
  · exact absurd above (by simp [signed])
  · have top : place infinity = limit := (place_infinite (by decide +kernel)).2
    exact absurd below (by simp [signed, top])
  · obtain ⟨k, rfl⟩ := Int.eq_ofNat_of_zero_le integral
    refine nearest_of_holds reading positive one_pos ?_
    simpa [Nat.pow_eq] using holds
  · obtain ⟨k, rfl⟩ : ∃ k : ℕ, exponent = -k := ⟨(-exponent).toNat, by omega⟩
    refine nearest_of_holds reading positive (by simp [Nat.pow_eq]) ?_
    simpa [Nat.pow_eq, div_eq_mul_inv] using holds

end Nearest

end PrivateQuery.Decimal
