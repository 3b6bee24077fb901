import PrivateQuery.Proofs.Binary64.Exponential
import PrivateQuery.Proofs.Privacy.Scale
import PrivateQuery.Proofs.Privacy.Tail

/-!
# Gaussian weights that vanish

While the square of a scale is a positive double its weights vanish against their sum: the weight of
zero is one, no weight is negative, and nine scales out a weight is at most `2 ^ -57`
(`weight_tiny`). So the sum outward ends within the rounds it is given (`sum_ends`). Where the square
is rounded to zero the weight of zero is no number, nor is any total, and nothing vanishes against it
(`not_outward_of_zero`).
-/
namespace PrivateQuery.Accuracy

open Binary64

/-- Whether a pair of weights is nothing against a total. -/
def vanishing (term total : Float) : Bool := decide (term ≤ epsilon * total)

theorem vanishing_iff {term total : Float} :
    vanishing term total = true ↔ term ≤ epsilon * total := decide_eq_true_iff

/-! ## Weights -/

/-- A positive double up to an integer that is not too large. -/
structure Variance (v : Float) (b : ℕ) : Prop where
  finite : IsFinite v
  pos : 0 < place v
  le : place v ≤ b
  few : b ≤ 2 ^ 52

section
variable {v : Float} {b n s : ℕ}

theorem negative_square (few : n ≤ 2 ^ 26) :
    IsFinite (-ofNat n * ofNat n) ∧ place (-ofNat n * ofNat n) = -(n * n : ℕ) := by
  obtain ⟨finite, exact⟩ := ofNat_of_small (n := n) (few.trans (by norm_num))
  have square : n * n ≤ 2 ^ 53 := (Nat.mul_le_mul few few).trans (by norm_num)
  have product := rounds_mul finite.neg finite
  rw [place_neg, exact, neg_mul, ← Nat.cast_mul] at product
  have same := product.eq (grid_natCast square).neg
  obtain ⟨finite', exact'⟩ := ofNat_of_small square
  refine ⟨product.isNumber.isFinite ?_, same⟩
  rw [same, abs_neg, Nat.abs_cast, ← exact']
  exact finite'.place_lt

theorem rounds_exponent (variance : Variance v b) (few : n ≤ 2 ^ 26) : ∃ d : ℝ, 0 < d ∧
    d ≤ 2 * b ∧ Rounds (-(n * n : ℕ) / d) (-ofNat n * ofNat n / (2 * v)) := by
  obtain ⟨finite, pos, le, small⟩ := variance
  have double := rounds_mul isFinite_two finite
  rw [place_two] at double
  have least := double.ge (grid_place v) (by linarith)
  obtain ⟨inner, -, most⟩ := double.upto (n := 2 * b) (by linarith) (by push_cast; linarith)
    (by omega)
  obtain ⟨finiteN, square⟩ := negative_square few
  have quotient := rounds_div finiteN inner (pos.trans_le least).ne'
  rw [square] at quotient
  exact ⟨place (2 * v), pos.trans_le least, by exact_mod_cast most, quotient⟩

theorem weight_zero (variance : Variance v b) :
    IsFinite (weight v 0) ∧ place (weight v 0) = 1 := by
  obtain ⟨d, -, -, exponent⟩ := rounds_exponent (n := 0) variance (by norm_num)
  rw [Nat.mul_zero, Nat.cast_zero, neg_zero, zero_div] at exponent
  exact exp_of_zero (exponent.isFinite le_rfl (two_zpow_pos 1023).le) (exponent.eq grid_zero)

theorem weight_bounds (variance : Variance v b) (few : n ≤ 2 ^ 26) :
    IsFinite (weight v n) ∧ 0 ≤ place (weight v n) ∧ place (weight v n) ≤ 1 := by
  obtain ⟨d, positive, -, exponent⟩ := rounds_exponent variance few
  have nonpos : -((n * n : ℕ) : ℝ) / d ≤ 0 :=
    div_nonpos_of_nonpos_of_nonneg (neg_nonpos.2 (Nat.cast_nonneg _)) positive.le
  obtain ⟨number, low, high⟩ := exp_bounds exponent.isNumber (exponent.le grid_zero nonpos)
  exact ⟨number.isFinite_of_le low (high.trans_eq place_one.symm) isFinite_one, low, high⟩

/-- **`weight_tiny`**: nine scales out weights are tiny. -/
theorem weight_tiny (variance : Variance v (s * s)) (few : 9 * s ≤ 2 ^ 26) :
    place (weight v (9 * s)) ≤ 2 ^ (-57 : ℤ) := by
  obtain ⟨d, positive, most, exponent⟩ := rounds_exponent variance few
  have forty : Grid (-40) := by simpa using (grid_natCast (n := 40) (by norm_num)).neg
  refine exp_tiny exponent.isNumber (exponent.le forty ?_)
  rw [neg_div, neg_le_neg_iff, le_div_iff₀ positive]
  push_cast at most ⊢
  nlinarith

/-- Pairs of weights are between zero and two, -/
theorem pair_bounds (variance : Variance v b) (few : n ≤ 2 ^ 26) :
    IsFinite (weight v n + weight v n) ∧ 0 ≤ place (weight v n + weight v n) ∧
      place (weight v n + weight v n) ≤ 2 := by
  obtain ⟨finite, low, high⟩ := weight_bounds variance few
  have sum := rounds_add finite finite
  exact_mod_cast sum.upto (n := 2) (add_nonneg low low) (by push_cast; linarith) (by norm_num)

/-- and nine scales out they are tiny too. -/
theorem pair_tiny (variance : Variance v (s * s)) (few : 9 * s ≤ 2 ^ 26) :
    place (weight v (9 * s) + weight v (9 * s)) ≤ 2 ^ (-56 : ℤ) := by
  obtain ⟨finite, -, -⟩ := weight_bounds variance few
  have tiny := weight_tiny variance few
  refine (rounds_add finite finite).le (grid_zpow (by norm_num) (by norm_num)) ?_
  calc place (weight v (9 * s)) + place (weight v (9 * s))
      ≤ 2 ^ (-57 : ℤ) + 2 ^ (-57 : ℤ) := add_le_add tiny tiny
    _ = 2 ^ (-56 : ℤ) := by norm_num

end

/-! ## A positive square -/

/-- What is tiny vanishes against a total of at least one. -/
theorem vanishing_of_tiny {term total : Float} (finite : IsFinite total) (one : 1 ≤ place total)
    (number : IsNumber term) (tiny : place term ≤ 2 ^ (-56 : ℤ)) : vanishing term total = true := by
  have reading : read epsilon = .finite false (2 ^ 52) (-104) := by decide +kernel
  have exact : place epsilon = 2 ^ (-52 : ℤ) := by
    rw [place, reading, Reading.place]
    norm_num
  have share := rounds_mul ⟨_, _, _, reading⟩ finite
  rw [exact] at share
  have least : (2 : ℝ) ^ (-56 : ℤ) ≤ 2 ^ (-52 : ℤ) * place total := by
    calc (2 : ℝ) ^ (-56 : ℤ) ≤ 2 ^ (-52 : ℤ) := by norm_num
      _ ≤ 2 ^ (-52 : ℤ) * place total := le_mul_of_one_le_right (two_zpow_pos _).le one
  have above := share.ge (grid_zpow (by norm_num) (by norm_num)) least
  exact vanishing_iff.2 (le_iff.2 ⟨number, share.isNumber, tiny.trans above⟩)

/-- What is known of a total while terms of at most two are added. -/
structure Total (total : Float) (next : ℕ) : Prop where
  finite : IsFinite total
  one_le : 1 ≤ place total
  le_double : place total ≤ (2 * next : ℕ)

theorem Total.add {total term : Float} {next : ℕ} (known : Total total next)
    (few : next < 2 ^ 26) (finite : IsFinite term) (nonneg : 0 ≤ place term)
    (two : place term ≤ 2) : Total (total + term) (next + 1) := by
  obtain ⟨finiteT, one, double⟩ := known
  have sum := rounds_add finiteT finite
  push_cast at double
  obtain ⟨finite', -, below⟩ := sum.upto (n := 2 * (next + 1)) (by linarith)
    (by push_cast; linarith) (by omega)
  exact ⟨finite', sum.ge grid_one (by linarith), below⟩

theorem exactScale_spec : IsFinite exactScale ∧ place exactScale = 10000 := by
  have value : value? exactScale = some 10000 := by decide +kernel
  exact ⟨value?_isSome_iff.1 ⟨_, value⟩, by rw [place_of_value? value]; norm_num⟩

/-- The scales whose weights are added up are at most `10000`. -/
theorem place_le_of_narrow {scale : Float} (number : IsNumber scale)
    (narrow : ¬ exactScale < scale) : place scale ≤ 10000 := by
  obtain ⟨finite, exact⟩ := exactScale_spec
  by_contra! more
  exact narrow (lt_iff.2 ⟨finite.isNumber, number, exact ▸ more⟩)

/-- **`sum_ends`**: where the square of a scale is positive the sum outward ends within its rounds. -/
theorem sum_ends {scale : Float} (scaled : isScale scale = true) (narrow : ¬ exactScale < scale)
    (pos : 0 < place (scale * scale)) :
    (sumOutward vanishing (weight (scale * scale)) (roundsFor scale) (weight (scale * scale) 0)
      1).isSome = true := by
  obtain ⟨finite, nonneg⟩ := isScale_iff.1 scaled
  have wide := place_le_of_narrow finite.isNumber narrow
  -- The first integer above the scale.
  obtain ⟨s, first⟩ : ∃ s, s = (truncate scale).natAbs + 1 := ⟨_, rfl⟩
  obtain ⟨least, most⟩ := natAbs_truncate finite
  rw [abs_of_nonneg nonneg] at least most
  have few : s ≤ 10001 := by
    have cut : (truncate scale).natAbs ≤ 10000 := by exact_mod_cast least.trans wide
    omega
  have below : place scale ≤ s := by
    rw [first]
    push_cast
    exact most.le
  have variance : Variance (scale * scale) (s * s) := by
    have square := rounds_mul finite finite
    have small : s * s ≤ 2 ^ 52 := by nlinarith
    obtain ⟨finiteV, -, le⟩ := square.upto (n := s * s) (mul_self_nonneg _)
      (by push_cast; exact mul_le_mul below below nonneg (Nat.cast_nonneg _)) (by omega)
    exact ⟨finiteV, pos, le, small⟩
  obtain ⟨finite0, one⟩ := weight_zero variance
  refine sumOutward_isSome Total (9 * s) ?_ ?_ ?_ ⟨finite0, one.ge, ?_⟩ (by omega)
  · intro total next known before
    obtain ⟨finiteP, low, high⟩ := pair_bounds (n := next) variance (by omega)
    exact known.add (by omega) finiteP low high
  · intro total known
    obtain ⟨finiteP, -, -⟩ := pair_bounds (n := 9 * s) variance (by omega)
    exact vanishing_of_tiny known.finite known.one_le finiteP.isNumber
      (pair_tiny variance (by omega))
  · rw [roundsFor]
    omega
  · rw [one]
    norm_num

/-! ## A square of zero -/

/-- Nothing vanishes against what is no number. -/
theorem not_outward_of_nan {weight : ℕ → Float} {total total' : Float} {next cutoff : ℕ}
    (nan : ¬ IsNumber total) : ¬ Outward vanishing weight total next total' cutoff := by
  intro outward
  induction outward with
  | stop gone => exact nan (isNumber_of_mul (le_iff.1 (vanishing_iff.1 gone)).2.1)
  | round stays rest ih => exact ih fun number => nan (isNumber_of_add number)

/-- **`not_outward_of_zero`**: with a variance of zero the weight of zero is `0 / 0`, and the sum
outward does not end. -/
theorem not_outward_of_zero {v total : Float} {next cutoff : ℕ} (finite : IsFinite v)
    (zero : place v = 0) : ¬ Outward vanishing (weight v) (weight v 0) next total cutoff := by
  refine not_outward_of_nan (not_not.2 (exp_of_nan ?_))
  obtain ⟨finiteN, square⟩ := negative_square (n := 0) (by norm_num)
  rw [Nat.mul_zero, Nat.cast_zero, neg_zero] at square
  have double := rounds_mul isFinite_two finite
  rw [zero, mul_zero] at double
  exact zero_div_zero finiteN square (double.isFinite le_rfl (two_zpow_pos 1023).le)
    (double.eq grid_zero)

end PrivateQuery.Accuracy
