import PrivateQuery.Proofs.Aggregate.Saturation
import PrivateQuery.Proofs.Binary64.Naturals

/-!
# What one cell contributes to a sum

A cell of an integer sum contributes at most the larger of the two bounds, and some cell contributes
just that (`contributions_within_iff`). The sensitivity of the sum is the double nearest to this
bound, so it covers every cell exactly if the bound is not rounded down (`stability_covers_iff`), and
when it does not, it is short by at most one part in `2 ^ 53`.
-/
namespace PrivateQuery.Transformation

variable {low high : Int64}

/-- The size of the larger bound. -/
def reach (low high : Int64) : ℕ := max low.toInt.natAbs high.toInt.natAbs

theorem reach_le (low high : Int64) : reach low high ≤ 2 ^ 63 := by
  have hl := Word.inRange_toInt low
  have hh := Word.inRange_toInt high
  unfold reach
  omega

theorem reach_eq_zero_iff : reach low high = 0 ↔ low = 0 ∧ high = 0 := by
  rw [reach, ← Int64.toInt_inj, ← Int64.toInt_inj, Int64.toInt_zero]
  omega

/-- The cells at the bounds contribute the bounds. -/
theorem exists_natAbs_integerPart (ordered : low ≤ high) :
    ∃ v, (integerPart low high v).toInt.natAbs = reach low high := by
  have between := Int64.le_iff_toInt_le.1 ordered
  have lower : (integerPart low high (.integer low)).toInt = low.toInt := by
    rw [toInt_integerPart ordered, boundedCell, Value.toInt64?, Option.getD_some]
    omega
  have upper : (integerPart low high (.integer high)).toInt = high.toInt := by
    rw [toInt_integerPart ordered, boundedCell, Value.toInt64?, Option.getD_some]
    omega
  rcases le_total low.toInt.natAbs high.toInt.natAbs with le | le
  · exact ⟨.integer high, by rw [upper, reach, max_eq_right le]⟩
  · exact ⟨.integer low, by rw [lower, reach, max_eq_left le]⟩

/-- A number is at least every contribution exactly if it is at least the larger bound. -/
theorem contributions_within_iff (ordered : low ≤ high) (q : ℚ) :
    (∀ v, |((integerPart low high v).toInt : ℚ)| ≤ q) ↔ (reach low high : ℚ) ≤ q := by
  have size (v : Value) : |((integerPart low high v).toInt : ℚ)| =
      ((integerPart low high v).toInt.natAbs : ℚ) := by rw [Nat.cast_natAbs, Int.cast_abs]
  constructor
  · intro within
    obtain ⟨v, largest⟩ := exists_natAbs_integerPart ordered
    simpa only [size, largest] using within v
  · intro covers v
    rw [size]
    exact le_trans (by exact_mod_cast natAbs_integerPart low high v) covers

/-- The sensitivity of an integer sum is the double of the larger bound. -/
theorem value?_stability (column : String) (low high : Int64) :
    ∃ q : ℚ, Binary64.value? ((integerSum column low high).stability 1) = some q ∧
      (q : ℝ) = Binary64.place (Binary64.ofNat (reach low high)) := by
  obtain ⟨finite, same⟩ := Binary64.place_one_mul (Binary64.isFinite_ofNat (reach_le low high))
  obtain ⟨q, value⟩ := Binary64.value?_isSome_iff.2 finite
  exact ⟨q, value, (Binary64.place_of_value? value).symm.trans same⟩

/-- **`stability_covers_iff`**: the sensitivity of an integer sum is at least every contribution of a
cell exactly if the larger bound is not rounded down on its way to a double; every contribution is at
most one part in `2 ^ 53` above it. -/
theorem stability_covers_iff (column : String) (ordered : low ≤ high) :
    ∃ q : ℚ, Binary64.value? ((integerSum column low high).stability 1) = some q ∧
      ((∀ v, |((integerPart low high v).toInt : ℚ)| ≤ q) ↔
        ¬ Binary64.RoundedDown (max low.toInt.natAbs high.toInt.natAbs)) ∧
      ∀ v, |((integerPart low high v).toInt : ℚ)| ≤ q * (1 + 1 / 2 ^ 53) := by
  obtain ⟨q, value, exact⟩ := value?_stability column low high
  have word := reach_le low high
  refine ⟨q, value, ?_, ?_⟩
  · rw [contributions_within_iff ordered, ← reach, ← Binary64.place_ofNat_lt_iff word, not_lt,
      ← exact]
    norm_cast
  · rw [contributions_within_iff ordered]
    have close := Binary64.le_mul_place_ofNat word
    rw [← exact] at close
    refine (Rat.cast_le (K := ℝ)).1 ?_
    push_cast
    exact close

theorem stability_covers_iff_words :
    Int64.minValue ≤ Int64.maxValue ∧
      ∃ q : ℚ, Binary64.value? ((integerSum "x" Int64.minValue Int64.maxValue).stability 1) = some q ∧
        ∀ v, |((integerPart Int64.minValue Int64.maxValue v).toInt : ℚ)| ≤ q := by
  have ordered : Int64.minValue ≤ Int64.maxValue := by decide
  obtain ⟨q, value, covers, -⟩ := stability_covers_iff "x" ordered
  exact ⟨ordered, q, value, covers.2 (by decide +kernel)⟩

/-- The bound `2 ^ 53 + 1` is rounded down, and a cell that reaches it contributes more than the
sensitivity. -/
theorem bound_rounded_down :
    ∃ q : ℚ, Binary64.value? ((integerSum "x" 0 9007199254740993).stability 1) = some q ∧
      ¬ ∀ v, |((integerPart 0 9007199254740993 v).toInt : ℚ)| ≤ q := by
  have value : Binary64.value? ((integerSum "x" 0 9007199254740993).stability 1) =
      some 9007199254740992 := by decide +kernel
  refine ⟨_, value, fun within => ?_⟩
  have part : (integerPart 0 9007199254740993 (.integer 9007199254740993)).toInt =
    9007199254740993 := by decide +kernel
  have above := within (.integer 9007199254740993)
  rw [part] at above
  norm_num at above

end PrivateQuery.Transformation
