import PrivateQuery.Proofs.Privacy.Bounds
import PrivateQuery.Proofs.Privacy.Quantile

/-!
# Which bounds are finite

At a positive scale every bound that is given is a number and not negative, and it is finite unless
the scale is huge (`Reasonable`), with one exception: half of the smallest share is lost against one,
so that the bound for Gaussian noise in closed form is infinite there (`gaussian_of_least`). None of
this depends on how quantiles are approximated, so it is proved for any function in their place
(`Library.standardWith`).
-/
namespace PrivateQuery

open Binary64 PrivateQuery.Normal

namespace Accuracy

variable {scale alpha bound x y : Float} {quantile : Float → Float}

/-! ## Any quantiles -/

/-- The bound for Gaussian noise, with any function for the quantiles. -/
def gaussianWith (quantile : Float → Float) (scale alpha : Float) : Float :=
  if scale == 0 then 0 else scale * quantile (1 - alpha / 2)

/-- Only at scales whose weights are not added up there are quantiles in it. -/
def discreteGaussianWith (quantile : Float → Float) (scale alpha : Float) : Option Float :=
  if exactScale < scale then some (Binary64.ceil (gaussianWith quantile scale alpha))
  else discreteGaussian scale alpha

/-- The bound for a distribution, if its computation ends. -/
def bound? (quantile : Float → Float) (scale alpha : Float) : Bool → Mechanism → Option Float
  | false, .laplace => some (laplace scale alpha)
  | true, .laplace => some (discreteLaplace scale alpha)
  | false, .gaussian => some (gaussianWith quantile scale alpha)
  | true, .gaussian => discreteGaussianWith quantile scale alpha

/-- What the library answers, with any function for the quantiles. -/
def ofScaleWith (quantile : Float → Float) (scale alpha : Float) (discrete : Bool)
    (mechanism : Mechanism) : Mechanism.Attempt Float :=
  if ¬ (0 < alpha ∧ alpha < 1) then Attempt.raise (.alpha alpha)
  else if ¬ isScale scale then Attempt.raise (.scale scale)
  else (bound? quantile scale alpha discrete mechanism).elim (.error .stalled) .ok

theorem not_beq_zero (finite : IsFinite x) (pos : 0 < place x) : ¬ (x == 0) = true :=
  fun zero => pos.ne' ((beq_zero_iff finite.isNumber).1 zero)

theorem discreteGaussianWith_quantile (scaled : isScale scale = true) :
    discreteGaussianWith Normal.quantile scale alpha = discreteGaussian scale alpha := by
  rw [discreteGaussianWith]
  split_ifs with wide
  · have pos : 0 < place scale := by
      obtain ⟨-, -, above⟩ := lt_iff.1 wide
      rw [exactScale_spec.2] at above
      linarith
    rw [discreteGaussian, if_neg (not_beq_zero (isScale_iff.1 scaled).1 pos), if_pos wide]
    rfl
  · rfl

theorem ofScaleWith_quantile : ofScaleWith Normal.quantile = ofScale := by
  funext scale alpha discrete mechanism
  unfold ofScaleWith ofScale
  by_cases scaled : isScale scale = true
  · have same : discreteGaussianWith Normal.quantile scale alpha = discreteGaussian scale alpha :=
      discreteGaussianWith_quantile scaled
    cases discrete <;> cases mechanism <;> try rfl
    rw [bound?, same]
    cases discreteGaussian scale alpha <;> rfl
  · simp only [scaled, Bool.false_eq_true, not_false_eq_true, if_true]

end Accuracy

/-- The library of this project, with any function for the quantiles. -/
def Library.standardWith (quantile : Float → Float) (parameters : Parameters) : Library :=
  { Library.standard parameters with accuracy := Accuracy.ofScaleWith quantile }

theorem Library.standardWith_quantile (parameters : Parameters) :
    Library.standardWith Normal.quantile parameters = Library.standard parameters := by
  rw [standardWith, Accuracy.ofScaleWith_quantile]
  rfl

namespace Accuracy

variable {scale alpha bound x y : Float} {quantile : Float → Float}

/-! ## Sizes of bounds -/

/-- A bound as it should be: a number that is not negative, and finite unless the scale is huge. -/
structure Reasonable (scale bound : Float) : Prop where
  isNumber : IsNumber bound
  nonneg : 0 ≤ place bound
  isFinite : place scale ≤ 2 ^ 960 → IsFinite bound

/-- What a confidence can leave: at least `2 ^ -53`, and at most all of it. -/
structure IsShare (alpha : Float) : Prop where
  finite : IsFinite alpha
  least : 2 ^ (-53 : ℤ) ≤ place alpha
  most : place alpha ≤ 1

theorem IsShare.pos (share : IsShare alpha) : 0 < place alpha :=
  (two_zpow_pos _).trans_le share.least

theorem reasonable_mul (finite : IsFinite scale) (pos : 0 < place scale) (finite' : IsFinite x)
    (nonneg : 0 ≤ place x) (le : place x ≤ 2 ^ 60) : Reasonable scale (scale * x) := by
  have product := rounds_mul finite finite'
  have low := mul_nonneg pos.le nonneg
  refine ⟨product.isNumber, product.nonneg low, fun small => product.isFinite low ?_⟩
  calc place scale * place x ≤ 2 ^ 960 * 2 ^ 60 := mul_le_mul small le nonneg (by norm_num)
    _ = 2 ^ (1020 : ℤ) := by
        rw [← pow_add]
        exact (zpow_natCast 2 1020).symm
    _ ≤ 2 ^ (1023 : ℤ) := zpow_le_zpow_right₀ (by norm_num) (by norm_num)

/-! ## Laplace noise -/

theorem laplace_reasonable (finite : IsFinite scale) (pos : 0 < place scale)
    (share : IsShare alpha) : Reasonable scale (laplace scale alpha) := by
  have quotient := rounds_div isFinite_one share.finite share.pos.ne'
  rw [place_one] at quotient
  have one : 1 ≤ 1 / place alpha := (one_le_div share.pos).2 share.most
  have small : 1 / place alpha ≤ (2 ^ 53 : ℕ) := by
    rw [div_le_iff₀ share.pos, Nat.cast_pow, Nat.cast_ofNat]
    have scaled := mul_le_mul_of_nonneg_left share.least (show (0 : ℝ) ≤ 2 ^ 53 by norm_num)
    exact le_trans (by norm_num) scaled
  obtain ⟨finiteQ, -, -⟩ := quotient.upto (by linarith) small (by norm_num)
  obtain ⟨number, low, high⟩ := ln_bounds finiteQ (quotient.ge grid_one one)
  have finiteLn : IsFinite (ln (1 / alpha)) := by
    refine number.isFinite ?_
    rw [abs_of_nonneg low, limit_eq_pow]
    exact high.trans_lt (pow_lt_pow_right₀ one_lt_two (by norm_num))
  exact reasonable_mul finite pos finiteLn low
    (high.trans (pow_le_pow_right₀ one_le_two (by norm_num)))

/-- A huge scale overflows. -/
example : (laplace 8.99e307 (1 - 0.95)).isFinite = false := by decide +kernel

/-- What the logarithm is taken of for discrete Laplace noise is finite: the divisor is not small. -/
theorem isFinite_discreteLaplace_argument (finite : IsFinite scale) (pos : 0 < place scale)
    (share : IsShare alpha) : IsFinite (2 / (alpha * (exp (1 / scale) + 1))) := by
  have quotient := rounds_div isFinite_one finite pos.ne'
  obtain ⟨number, nonneg⟩ := exp_nonneg quotient.isNumber
  -- One more than the exponential is at least one, if not infinite.
  obtain ⟨numberS, leastS⟩ : IsNumber (exp (1 / scale) + 1) ∧ 1 ≤ place (exp (1 / scale) + 1) := by
    by_cases inner : IsFinite (exp (1 / scale))
    · have sum := rounds_add inner isFinite_one
      rw [place_one] at sum
      exact ⟨sum.isNumber, sum.ge grid_one (by linarith)⟩
    · obtain ⟨number', top⟩ := place_infinite
        (infinite_add_finite (number.infinite_of_nonneg nonneg inner) isFinite_one)
      exact ⟨number', top ▸ grid_one.le_limit⟩
  -- So its product by the share is at least the share.
  have divisor : IsNumber (alpha * (exp (1 / scale) + 1)) ∧
      place alpha ≤ place (alpha * (exp (1 / scale) + 1)) := by
    by_cases inner : IsFinite (exp (1 / scale) + 1)
    · have product := rounds_mul share.finite inner
      have least := le_mul_of_one_le_right share.pos.le leastS
      exact ⟨product.isNumber, product.ge (grid_place alpha) least⟩
    · obtain ⟨number', top⟩ := place_infinite (mul_infinite share.finite.isNumber share.pos
        (numberS.infinite_of_nonneg (by linarith) inner))
      exact ⟨number', top ▸ (grid_place alpha).le_limit⟩
  obtain ⟨numberD, leastD⟩ := divisor
  have posD := share.pos.trans_le leastD
  by_cases inner : IsFinite (alpha * (exp (1 / scale) + 1))
  · have ratio := rounds_div isFinite_two inner posD.ne'
    rw [place_two] at ratio
    refine ratio.isFinite (div_nonneg (by norm_num) posD.le) ?_
    rw [div_le_iff₀ posD]
    have scaled := mul_le_mul_of_nonneg_left (share.least.trans leastD) (two_zpow_pos 1023).le
    rw [← zpow_add₀ (by norm_num)] at scaled
    have least : (2 : ℝ) ^ (1 : ℤ) ≤ 2 ^ (1023 + -53 : ℤ) :=
      zpow_le_zpow_right₀ one_le_two (by norm_num)
    rw [zpow_one] at least
    exact least.trans scaled
  · exact (div_of_infinite isFinite_two (numberD.infinite_of_nonneg posD.le inner)).1

/-- A product that is not large by a positive scale that is not huge. No number counts as zero. -/
theorem place_mul_le (finite : IsFinite scale) (pos : 0 < place scale)
    (small : place scale ≤ 2 ^ 960) (le : place x ≤ 2 ^ 10) : place (scale * x) ≤ 2 ^ 970 := by
  cases reading : read x with
  | nan =>
    have none : read (scale * x) = .nan := by
      by_contra number
      exact isNumber_of_mul number reading
    rw [place, none]
    simp [Reading.place]
  | infinite negative =>
    have infinite := mul_infinite finite.isNumber pos reading
    have top := limit_pos
    rw [place, infinite]
    cases negative with
    | true =>
      rw [Reading.place, signum_true, neg_one_mul]
      exact (neg_nonpos.2 top.le).trans (by positivity)
    | false =>
      rw [(place_infinite reading).2, limit_eq_pow] at le
      exact absurd le (not_le.2 (pow_lt_pow_right₀ one_lt_two (by norm_num)))
  | finite negative s e =>
    have product := rounds_mul finite ⟨negative, s, e, reading⟩
    have grid : Grid (2 ^ 970) := by
      exact_mod_cast grid_zpow (k := 970) (by norm_num) (by norm_num)
    refine product.le grid ?_
    calc place scale * place x ≤ place scale * 2 ^ 10 := mul_le_mul_of_nonneg_left le pos.le
      _ ≤ 2 ^ 960 * 2 ^ 10 := mul_le_mul_of_nonneg_right small (by norm_num)
      _ = 2 ^ 970 := (pow_add 2 960 10).symm

theorem place_add_one_lt (le : place x ≤ 2 ^ 970) : place (x + 1) < limit := by
  have top := limit_pos
  have room : (2 : ℝ) ^ 970 < 2 ^ 1024 := pow_lt_pow_right₀ one_lt_two (by norm_num)
  rw [← limit_eq_pow] at room
  cases reading : read x with
  | nan =>
    have none : read (x + 1) = .nan := by
      by_contra number
      exact isNumber_of_add number reading
    rw [place, none]
    exact top
  | infinite negative =>
    cases negative with
    | true =>
      rw [place, infinite_add_finite reading isFinite_one, Reading.place, signum_true, neg_one_mul]
      exact neg_lt_self top
    | false =>
      rw [(place_infinite reading).2] at le
      exact absurd room (not_lt.2 le)
  | finite negative s e =>
    have sum := rounds_add (show IsFinite x from ⟨negative, s, e, reading⟩) isFinite_one
    have grid : Grid (2 ^ 971) := by
      exact_mod_cast grid_zpow (k := 971) (by norm_num) (by norm_num)
    rw [place_one] at sum
    refine (sum.le grid ?_).trans_lt ?_
    · have one : (1 : ℝ) ≤ 2 ^ 970 := one_le_pow₀ one_le_two
      exact (add_le_add le one).trans_eq (mul_two _).symm
    · rw [limit_eq_pow]
      exact pow_lt_pow_right₀ one_lt_two (by norm_num)

theorem discreteLaplace_reasonable (finite : IsFinite scale) (pos : 0 < place scale)
    (share : IsShare alpha) : Reasonable scale (discreteLaplace scale alpha) := by
  have argument := isFinite_discreteLaplace_argument finite pos share
  rw [discreteLaplace, if_neg (not_beq_zero finite pos)]
  have number := isNumber_maximum.2 (.inr isFinite_zero.isNumber :
    IsNumber (scale * ln (2 / (alpha * (exp (1 / scale) + 1))) + 1) ∨ IsNumber 0)
  by_cases inner : IsNumber (scale * ln (2 / (alpha * (exp (1 / scale) + 1))) + 1)
  · have larger := place_maximum inner isFinite_zero.isNumber
    rw [place_zero] at larger
    refine ⟨number, larger ▸ le_max_right _ _, fun small => number.isFinite ?_⟩
    have below := place_add_one_lt (place_mul_le finite pos small (ln_le argument))
    rw [larger, abs_of_nonneg (le_max_right _ _)]
    exact max_lt below limit_pos
  · rw [maximum_of_not_isNumber inner]
    exact ⟨isFinite_zero.isNumber, place_zero.ge, fun _ => isFinite_zero⟩

/-! ## Gaussian noise -/

theorem place_half (share : IsShare alpha) :
    IsFinite (alpha / 2) ∧ place (alpha / 2) = place alpha / 2 := by
  have rounds := rounds_half share.finite
  have away : 2 ^ (-1021 : ℤ) ≤ |place alpha| := by
    rw [abs_of_pos share.pos]
    exact (zpow_le_zpow_right₀ (by norm_num) (by norm_num)).trans share.least
  refine ⟨rounds.isFinite (by linarith [share.pos]) ?_, rounds.eq ((grid_place alpha).half away)⟩
  have one : (1 : ℝ) ≤ 2 ^ (1023 : ℤ) := one_le_zpow₀ (by norm_num) (by norm_num)
  exact le_trans (by linarith [share.most]) one

theorem gaussian_reasonable (spec : IsQuantile quantile) (finite : IsFinite scale)
    (pos : 0 < place scale) (share : IsShare alpha) (more : 2 ^ (-53 : ℤ) < place alpha) :
    Reasonable scale (gaussianWith quantile scale alpha) := by
  obtain ⟨finiteH, half⟩ := place_half share
  have posH : 0 < place (alpha / 2) := half ▸ half_pos share.pos
  have lessH : place (alpha / 2) ≤ 1 / 2 := by linarith [share.most]
  obtain ⟨finiteP, -, most⟩ := complement_bounds finiteH posH (by linarith)
  have short : place (1 - alpha / 2) ≠ 1 := by
    rw [Ne, complement_eq_one_iff finiteH posH (by linarith), half, not_le,
      lt_div_iff₀ (by norm_num)]
    exact lt_of_eq_of_lt (by norm_num) more
  have median : 1 / 2 ≤ place (1 - alpha / 2) := by
    refine (rounds_complement finiteH).ge ?_ (by linarith)
    have grid := grid_zpow (k := -1) (by norm_num) (by norm_num)
    norm_num at grid ⊢
    exact grid
  obtain ⟨finiteQ, nonneg, le⟩ := spec.upper finiteP median (most.lt_of_ne short)
  rw [gaussianWith, if_neg (not_beq_zero finite pos)]
  exact reasonable_mul finite pos finiteQ nonneg le

/-- **`gaussian_of_least`**: the smallest share has an infinite bound. -/
theorem gaussian_of_least (spec : IsQuantile quantile) (finite : IsFinite scale)
    (pos : 0 < place scale) (share : IsShare alpha) (least : place alpha = 2 ^ (-53 : ℤ)) :
    read (gaussianWith quantile scale alpha) = .infinite false := by
  obtain ⟨finiteH, half⟩ := place_half share
  have posH : 0 < place (alpha / 2) := half ▸ half_pos share.pos
  have whole : place (1 - alpha / 2) = 1 := by
    refine (complement_eq_one_iff finiteH posH (by linarith [share.most])).2 ?_
    rw [half, least]
    norm_num
  rw [gaussianWith, if_neg (not_beq_zero finite pos)]
  have rounds := rounds_complement finiteH
  exact mul_infinite finite.isNumber pos (spec.top rounds.isNumber whole)

example : (gaussian 1 (1 - 0.9999999999999999)).isFinite = false := by decide +kernel

/-! ## Discrete Gaussian noise -/

/-- Where weights are added up the bound is an integer within the rounds. -/
theorem discreteGaussian_of_narrow (finite : IsFinite scale) (pos : 0 < place scale)
    (narrow : ¬ exactScale < scale) (found : discreteGaussian scale alpha = some bound) :
    IsFinite bound ∧ 0 ≤ place bound := by
  rw [discreteGaussian, if_neg (not_beq_zero finite pos), if_neg narrow] at found
  obtain ⟨last, tail, rfl⟩ := Option.map_eq_some_iff.1 found
  obtain ⟨⟨total, cutoff⟩, ended, rfl⟩ := Option.map_eq_some_iff.1 tail
  have before := sumOutward_lt ended
  have cut : ((truncate scale).natAbs : ℝ) ≤ (10000 : ℕ) := by
    have wide := place_le_of_narrow finite.isNumber narrow
    have least := (natAbs_truncate finite).1
    rw [abs_of_pos pos] at least
    exact_mod_cast least.trans wide
  have few : (truncate scale).natAbs ≤ 10000 := by exact_mod_cast cut
  rw [roundsFor] at before
  have within : firstWithin (alpha * total) (weight (scale * scale)) (cutoff - 1)
      (total - weight (scale * scale) 0) 1 ≤ 1 + (cutoff - 1) := firstWithin_le
  obtain ⟨finite', exact⟩ := ofNat_of_small (within.trans (by omega))
  exact ⟨finite', exact ▸ Nat.cast_nonneg _⟩

theorem Reasonable.ceil (reasonable : Reasonable scale bound) :
    Reasonable scale (Binary64.ceil bound) := by
  obtain ⟨number, nonneg, finite⟩ := ceil_bounds reasonable.isNumber reasonable.nonneg
  exact ⟨number, nonneg, fun small => finite.2 (reasonable.isFinite small)⟩

end Accuracy

end PrivateQuery
