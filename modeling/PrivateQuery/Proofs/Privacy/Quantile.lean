import PrivateQuery.Privacy.Quantile
import PrivateQuery.Proofs.Binary64.Complement
import PrivateQuery.Proofs.Binary64.Logarithm

/-!
# Sizes of quantiles

The polynomials of the approximations have coefficients that are neither negative nor large
(`Moderate`), so that at arguments up to eight their values are not large either, and those with the
last coefficient one can be divided by. From the median up a quantile is therefore a finite double
that is not negative (`within_quantile`). The quantile of one is infinite (`quantile_of_one`), also
where a share below one is rounded to it.
-/
namespace PrivateQuery.Normal

open Binary64

/-! ## Ranges -/

/-- A finite double between zero and an integer. -/
structure Within (bound : ℕ) (x : Float) : Prop where
  finite : IsFinite x
  nonneg : 0 ≤ place x
  le : place x ≤ bound

section
variable {a b : ℕ} {x y : Float} {q : ℝ}

theorem within_of_rounds (rounds : Rounds q x) (nonneg : 0 ≤ q) (le : q ≤ b) (few : b ≤ 2 ^ 53) :
    Within b x :=
  let ⟨finite, low, high⟩ := rounds.upto nonneg le few
  ⟨finite, low, high⟩

theorem Within.mono (hx : Within a x) (le : a ≤ b) : Within b x :=
  ⟨hx.finite, hx.nonneg, hx.le.trans (by exact_mod_cast le)⟩

theorem Within.add (hx : Within a x) (hy : Within b y) (few : a + b ≤ 2 ^ 53) :
    Within (a + b) (x + y) := by
  refine within_of_rounds (rounds_add hx.finite hy.finite) (add_nonneg hx.nonneg hy.nonneg) ?_ few
  push_cast
  exact add_le_add hx.le hy.le

theorem Within.mul (hx : Within a x) (hy : Within b y) (few : a * b ≤ 2 ^ 53) :
    Within (a * b) (x * y) := by
  refine within_of_rounds (rounds_mul hx.finite hy.finite) (mul_nonneg hx.nonneg hy.nonneg) ?_ few
  push_cast
  exact mul_le_mul hx.le hy.le hy.nonneg (Nat.cast_nonneg a)

theorem Within.sub (hx : Within b x) (hy : IsFinite y) (nonneg : 0 ≤ place y)
    (le : place y ≤ place x) (few : b ≤ 2 ^ 53) : Within b (x - y) := by
  refine within_of_rounds (rounds_sub hx.finite hy) (sub_nonneg.2 le) ?_ few
  linarith [hx.le]

theorem Within.div (hx : Within b x) (hy : IsFinite y) (one : 1 ≤ place y) (few : b ≤ 2 ^ 53) :
    Within b (x / y) := by
  have pos : 0 < place y := one_pos.trans_le one
  refine within_of_rounds (rounds_div hx.finite hy pos.ne') (div_nonneg hx.nonneg pos.le) ?_ few
  exact (div_le_self hx.nonneg one).trans hx.le

end

/-! ## Polynomials -/

/-- At most eight coefficients, none of them negative or large. -/
def Moderate (coefficients : List Float) : Prop :=
  coefficients.length ≤ 8 ∧ ∀ c ∈ coefficients, 0 ≤ c ∧ c ≤ ofNat 131072

instance Moderate.decidable (coefficients : List Float) : Decidable (Moderate coefficients) :=
  inferInstanceAs (Decidable (_ ∧ _))

/-- What the value of such a polynomial is bounded by, at arguments up to eight. -/
def polynomialBound : ℕ := 131072 * 43046721

variable {x : Float} {coefficients : List Float} {c : Float}

theorem polynomial_append (x : Float) (coefficients : List Float) (c : Float) :
    polynomial x (coefficients ++ [c]) = polynomial x coefficients * x + c := by
  simp [polynomial]

theorem within_coefficient (moderate : Moderate coefficients) (member : c ∈ coefficients) :
    Within 131072 c := by
  obtain ⟨nonneg, most⟩ := moderate.2 c member
  obtain ⟨finite, exact⟩ := ofNat_of_small (n := 131072) (by norm_num)
  obtain ⟨-, number, low⟩ := le_iff.1 nonneg
  obtain ⟨-, -, high⟩ := le_iff.1 most
  rw [place_zero] at low
  exact ⟨number.isFinite_of_le low high finite, low, high.trans_eq exact⟩

theorem Moderate.init (moderate : Moderate (coefficients ++ [c])) : Moderate coefficients := by
  obtain ⟨few, within⟩ := moderate
  rw [List.length_append] at few
  exact ⟨by omega, fun c member => within c (List.mem_append_left _ member)⟩

/-- Each step of the evaluation makes the bound at most nine times as large. -/
theorem within_polynomial_pow (hx : Within 8 x) (moderate : Moderate coefficients) :
    Within (131072 * 9 ^ coefficients.length) (polynomial x coefficients) := by
  induction coefficients using List.reverseRecOn with
  | nil => exact ⟨isFinite_zero, place_zero.ge, place_zero.le.trans (Nat.cast_nonneg _)⟩
  | append_singleton coefficients c ih =>
    have value := ih moderate.init
    have last := within_coefficient moderate (List.mem_append_right _ (List.mem_singleton_self c))
    have few := moderate.1
    rw [List.length_append, List.length_singleton] at few ⊢
    have size : 9 ^ coefficients.length ≤ 9 ^ 7 := Nat.pow_le_pow_right (by norm_num) (by omega)
    have one : 1 ≤ 9 ^ coefficients.length := Nat.one_le_pow _ _ (by norm_num)
    rw [polynomial_append]
    refine ((value.mul hx (by omega)).add last (by omega)).mono ?_
    rw [pow_succ]
    omega

theorem within_polynomial (hx : Within 8 x) (moderate : Moderate coefficients) :
    Within polynomialBound (polynomial x coefficients) := by
  refine (within_polynomial_pow hx moderate).mono (Nat.mul_le_mul_left _ ?_)
  exact Nat.pow_le_pow_right (by norm_num) moderate.1

theorem one_le_polynomial (hx : Within 8 x) (moderate : Moderate coefficients)
    (last : coefficients.getLast? = some 1.0) : 1 ≤ place (polynomial x coefficients) := by
  obtain ⟨init, rfl⟩ := List.getLast?_eq_some_iff.1 last
  have one : place 1.0 = 1 := by
    have same : read 1.0 = read 1 := by decide +kernel
    rw [place, same]
    exact place_one
  have value := within_polynomial_pow hx moderate.init
  have size : 9 ^ init.length ≤ 9 ^ 8 := Nat.pow_le_pow_right (by norm_num) moderate.init.1
  have product := value.mul hx (by omega)
  have ended := within_coefficient moderate (List.mem_append_right _ (List.mem_singleton_self 1.0))
  rw [polynomial_append]
  refine (rounds_add product.finite ended.finite).ge grid_one ?_
  rw [one]
  linarith [product.nonneg]

theorem within_quotient {v : Float} (hv : Within polynomialBound v) (hx : Within 8 x)
    (moderate : Moderate coefficients) (last : coefficients.getLast? = some 1.0) :
    Within polynomialBound (v / polynomial x coefficients) :=
  hv.div (within_polynomial hx moderate).finite (one_le_polynomial hx moderate last) (by decide)

/-! ## Tails -/

theorem eight_fifths_le_sqrt : place 1.6 ≤ √(41 / 16) := by
  have reading : read 1.6 = .finite false 7205759403792794 (-52) := by decide +kernel
  refine Real.le_sqrt_of_sq_le ?_
  rw [place, reading, Reading.place]
  norm_num

/-- The distance of a quantile from the median, for tails from the last bit under one up to those
that the approximation around the median leaves. -/
theorem within_tailDistance {tail : Float} (finite : IsFinite tail)
    (least : 2 ^ (-53 : ℤ) ≤ place tail) (most : place tail ≤ 77 / 1024) :
    Within polynomialBound (tailDistance tail) := by
  obtain ⟨finiteLn, low, high⟩ := ln_of_small finite least most
  have size := place_neg (x := ln tail)
  have root := rounds_sqrt finiteLn.neg (by linarith)
  have most : √(place (-ln tail)) ≤ (8 : ℕ) := by
    rw [Real.sqrt_le_left (by norm_num)]
    norm_num
    linarith
  have least : place 1.6 ≤ place (-ln tail).sqrt := by
    refine root.ge (grid_place 1.6) (eight_fifths_le_sqrt.trans (Real.sqrt_le_sqrt ?_))
    linarith
  have within := within_of_rounds root (Real.sqrt_nonneg _) most (by norm_num)
  have literal : IsFinite 1.6 ∧ 0 ≤ place 1.6 ∧ IsFinite 5 ∧ 0 ≤ place 5 := by
    obtain ⟨-, number, nonneg⟩ := le_iff.1 (show (0 : Float) ≤ 1.6 by decide +kernel)
    obtain ⟨-, number', nonneg'⟩ := le_iff.1 (show (0 : Float) ≤ 5 by decide +kernel)
    rw [place_zero] at nonneg nonneg'
    exact ⟨isFinite_iff.1 (by decide +kernel), nonneg, isFinite_iff.1 (by decide +kernel), nonneg'⟩
  obtain ⟨finite16, nonneg16, finite5, nonneg5⟩ := literal
  unfold tailDistance
  dsimp only
  split_ifs with near
  · have inner := within.sub finite16 nonneg16 least (by norm_num)
    exact within_quotient (within_polynomial inner (by decide +kernel)) inner (by decide +kernel)
      (by decide +kernel)
  · have beyond : place 5 ≤ place (-ln tail).sqrt :=
      not_lt.1 fun less => near (le_iff.2 ⟨within.finite.isNumber, finite5.isNumber, less.le⟩)
    have inner := within.sub finite5 nonneg5 beyond (by norm_num)
    exact within_quotient (within_polynomial inner (by decide +kernel)) inner (by decide +kernel)
      (by decide +kernel)

/-! ## Quantiles -/

variable {p : Float}

theorem place_central : place 0.425 * place 0.425 ≤ place 0.180625 ∧ 435 / 1024 ≤ place 0.425 := by
  have width : read 0.425 = .finite false 7656119366529843 (-54) := by decide +kernel
  have square : read 0.180625 = .finite false 6507701461550367 (-55) := by decide +kernel
  rw [place, place, width, square, Reading.place, Reading.place]
  norm_num

/-- **`quantile_of_one`**: the quantile of one is infinite. -/
theorem quantile_of_one (number : IsNumber p) (one : 1 ≤ place p) :
    read (quantile p) = .infinite false := by
  have pos : ¬ p ≤ 0 := by
    intro nonpos
    obtain ⟨-, -, le⟩ := le_iff.1 nonpos
    rw [place_zero] at le
    linarith
  have top : 1 ≤ p := le_iff.2 ⟨isFinite_one.isNumber, number, place_one.trans_le one⟩
  rw [quantile]
  dsimp only
  rw [if_neg pos, if_pos top]
  decide +kernel

/-- **`within_quantile`**: from the median up, short of one, quantiles are finite and not negative. -/
theorem within_quantile (finite : IsFinite p) (median : 1 / 2 ≤ place p) (less : place p < 1) :
    Within polynomialBound (quantile p) := by
  have pos : ¬ p ≤ 0 := by
    intro nonpos
    obtain ⟨-, -, le⟩ := le_iff.1 nonpos
    rw [place_zero] at le
    linarith
  have top : ¬ 1 ≤ p := by
    intro one
    obtain ⟨-, -, le⟩ := le_iff.1 one
    rw [place_one] at le
    linarith
  have half : IsFinite 0.5 ∧ place 0.5 = 1 / 2 := by
    have reading : read 0.5 = .finite false (2 ^ 52) (-53) := by decide +kernel
    exact ⟨⟨_, _, _, reading⟩, by norm_num [place, reading, Reading.place]⟩
  have difference := rounds_sub finite half.1
  rw [half.2] at difference
  have inner : Within 1 (p - 0.5) :=
    within_of_rounds difference (by linarith) (by push_cast; linarith) (by norm_num)
  obtain ⟨square, width⟩ := place_central
  obtain ⟨least, -, -⟩ := le_iff.1 (show (0 : Float) ≤ 0.425 by decide +kernel)
  rw [quantile]
  dsimp only
  rw [if_neg pos, if_neg top]
  split_ifs with central below
  · obtain ⟨-, -, near⟩ := le_iff.1 central
    rw [place_abs, abs_of_nonneg inner.nonneg] at near
    have product := rounds_mul inner.finite inner.finite
    have small : place ((p - 0.5) * (p - 0.5)) ≤ place 0.180625 :=
      product.le (grid_place _) ((mul_le_mul near near inner.nonneg (by linarith)).trans square)
    have outer : Within 8 0.180625 := by
      obtain ⟨-, -, low⟩ := le_iff.1 (show (0 : Float) ≤ 0.180625 by decide +kernel)
      obtain ⟨-, -, high⟩ := le_iff.1 (show (0.180625 : Float) ≤ 1 by decide +kernel)
      rw [place_zero] at low
      rw [place_one] at high
      exact ⟨isFinite_iff.1 (by decide +kernel), low, high.trans (by norm_num)⟩
    have argument : Within 8 (0.180625 - (p - 0.5) * (p - 0.5)) :=
      outer.sub (inner.mul inner (by norm_num)).finite (inner.mul inner (by norm_num)).nonneg small
        (by norm_num)
    have value := within_polynomial argument (show Moderate centralNum by decide +kernel)
    have numerator := inner.mul value (by decide)
    rw [one_mul] at numerator
    exact within_quotient numerator argument (by decide +kernel) (by decide +kernel)
  · obtain ⟨-, -, negative⟩ := lt_iff.1 below
    rw [place_zero] at negative
    exact absurd inner.nonneg (not_le.2 negative)
  · have far : place 0.425 < place (p - 0.5) := by
      by_contra! near
      refine central (le_iff.2 ⟨isNumber_abs.2 inner.finite.isNumber, ?_, ?_⟩)
      · exact (isFinite_iff.1 (by decide +kernel)).isNumber
      · rwa [place_abs, abs_of_nonneg inner.nonneg]
    have most : 947 / 1024 < place p := by
      by_contra! small
      have bound : place (p - 0.5) ≤ place 0.425 := difference.le (grid_place _) (by linarith)
      exact absurd far (not_lt.2 bound)
    obtain ⟨finiteC, low, -⟩ := complement_bounds finite (by linarith) less
    refine within_tailDistance finiteC low ((rounds_complement finite).le ?_ (by linarith))
    have grid := grid_mul_zpow (m := 77) (e := -10) (by norm_num) (by norm_num)
      (le_trans (by norm_num) grid_one.le_limit)
    convert grid using 1
    norm_num

/-- What is asked of quantiles from the median up: short of one they are finite, not negative and not
huge, and at one they are infinite. -/
structure IsQuantile (q : Float → Float) : Prop where
  upper {p : Float} (finite : IsFinite p) (median : 1 / 2 ≤ place p) (less : place p < 1) :
    IsFinite (q p) ∧ 0 ≤ place (q p) ∧ place (q p) ≤ 2 ^ 60
  top {p : Float} (number : IsNumber p) (one : place p = 1) : read (q p) = .infinite false

theorem isQuantile_quantile : IsQuantile quantile where
  upper finite median less := by
    obtain ⟨finiteQ, nonneg, le⟩ := within_quantile finite median less
    refine ⟨finiteQ, nonneg, le.trans ?_⟩
    norm_num [polynomialBound]
  top number one := quantile_of_one number one.ge

end PrivateQuery.Normal
