import PrivateQuery.Proofs.Binary64.Exponential
import PrivateQuery.Proofs.Binary64.Special
import PrivateQuery.Proofs.Binary64.Squares
import PrivateQuery.Proofs.Noise.Faults

/-!
# Acceptance of discrete Gaussian noise

A draw is accepted with the probability `exp (-(d * d / (2 * v)))`, where `v` is the square of the
scale. While the square is a positive finite double this is a probability for every draw, also where
`2 * v` is infinite (`acceptance_isProbability`). A square that is infinite leaves no draw with a
probability (`acceptance_of_infinite`); one that is rounded to zero leaves none at zero, and makes
the others impossible or none (`acceptance_of_zero`). So at these scales, but zero itself, the
sampler never ends with a value and can crash (`discreteGaussian_never`,
`discreteGaussian_crashes`), and at all others it does not crash (`discreteGaussian_total`).
-/
namespace PrivateQuery

open Binary64

/-- A sampler that no generator leads to a value. -/
def AlwaysFails {α : Type} (s : Sampler α) : Prop := ∀ g a, (s.run g).1 ≠ .ok a

theorem AlwaysFails.throw {α : Type} (fault : Fault MechanismError) :
    AlwaysFails (MonadExcept.throw fault : Sampler α) := by
  intro g a ended
  change Except.error fault = Except.ok a at ended
  simp at ended

theorem AlwaysFails.bind {α β : Type} {s : Sampler α} {f : α → Sampler β}
    (rest : ∀ g a, (s.run g).1 = .ok a → AlwaysFails (f a)) : AlwaysFails (s >>= f) := by
  intro g b ended
  rw [run_bind] at ended
  cases first : s.run g with
  | mk outcome g' =>
    rw [first] at ended
    cases outcome with
    | ok a => exact rest g a (by rw [first]) g' b ended
    | error fault => simp at ended

/-- The generator whose words are all zero. -/
def Generator.zeros : Generator := ⟨fun _ => 0, 0⟩

namespace Noise

/-! ## Probabilities -/

theorem isProbability_iff {p : Float} :
    IsProbability p ↔ IsNumber p ∧ 0 ≤ place p ∧ place p ≤ 1 := by
  rw [IsProbability, beq_iff, le_iff, lt_iff, place_zero, place_one]
  constructor
  · rintro (⟨number, -, one⟩ | ⟨⟨-, number, low⟩, -, -, high⟩)
    · exact ⟨number, by linarith, one.le⟩
    · exact ⟨number, low, high.le⟩
  · rintro ⟨number, low, high⟩
    rcases high.lt_or_eq with less | one
    · exact .inr ⟨⟨isFinite_zero.isNumber, number, low⟩, number, isFinite_one.isNumber, less⟩
    · exact .inl ⟨number, isFinite_one.isNumber, one⟩

theorem not_isProbability_of_nan {p : Float} (h : read p = .nan) : ¬ IsProbability p :=
  fun proper => (isProbability_iff.1 proper).1 h

/-! ## A positive finite square -/

section
variable {v t : Float}

theorem isProbability_exp_neg {q : Float} (number : IsNumber q) (nonneg : 0 ≤ place q) :
    IsProbability (exp (-q)) := by
  refine isProbability_iff.2 (exp_bounds (isNumber_neg.2 number) ?_)
  rw [place_neg]
  linarith

/-- The double of a magnitude is so small that its square is finite. -/
theorem magnitude_bounds (y : Int64) :
    IsFinite (ofNat y.toInt.natAbs) ∧ 0 ≤ place (ofNat y.toInt.natAbs) ∧
      place (ofNat y.toInt.natAbs) ≤ (2 ^ 53 - 1) * 2 ^ (459 : ℤ) := by
  have range := Word.inRange_toInt y
  have word : y.toInt.natAbs ≤ 2 ^ 63 := by omega
  have rounds := rounds_ofNat y.toInt.natAbs
  have high : place (ofNat y.toInt.natAbs) ≤ 2 ^ (459 : ℤ) := by
    have word' : (y.toInt.natAbs : ℝ) ≤ 2 ^ (63 : ℤ) := by exact_mod_cast word
    exact rounds.le (grid_zpow (by norm_num) (by norm_num))
      (word'.trans (zpow_le_zpow_right₀ (by norm_num) (by norm_num)))
  exact ⟨isFinite_ofNat word, rounds.nonneg (Nat.cast_nonneg _),
    high.trans (le_mul_of_one_le_left (two_zpow_pos 459).le (by norm_num))⟩

/-- A difference of doubles that are not negative is no larger than they are. -/
theorem difference_bounds {a q : Float} {b : ℝ} (ha : IsFinite a) (nonnegA : 0 ≤ place a)
    (hq : IsFinite q) (nonnegQ : 0 ≤ place q) (leA : place a ≤ b) (leQ : place q ≤ b) :
    IsFinite (a - q) ∧ |place (a - q)| ≤ b := by
  have difference := rounds_sub ha hq
  have high := difference.le (grid_place a) (by linarith)
  have low := difference.ge (grid_place q).neg (by linarith)
  refine ⟨difference.isNumber.isFinite (abs_lt.2 ⟨?_, ?_⟩), abs_le.2 ⟨by linarith, by linarith⟩⟩
  · linarith [(abs_lt.1 hq.abs_place_lt).2]
  · linarith [(abs_lt.1 ha.abs_place_lt).2]

/-- The quotient by what is at least one is finite and not larger. -/
theorem quotient_bounds (hv : IsFinite v) (nonneg : 0 ≤ place v) (ht : IsFinite t)
    (one : 1 ≤ place t) : IsFinite (v / t) ∧ 0 ≤ place (v / t) ∧ place (v / t) ≤ place v := by
  have quotient := rounds_div hv ht (by linarith)
  have low := quotient.nonneg (div_nonneg nonneg (by linarith))
  have high := quotient.le (grid_place v) (div_le_self nonneg one)
  exact ⟨quotient.isNumber.isFinite_of_le low high hv, low, high⟩

end

/-- **`acceptance_isProbability`**: where the square of a scale is a positive finite double, every
draw is accepted with a probability. -/
theorem acceptance_isProbability {scale : Float} (scaled : isScale scale = true)
    (finite : IsFinite (scale * scale)) (pos : 0 < place (scale * scale)) (y : Int64) :
    IsProbability (acceptance (scale * scale) (floor scale + 1) y) := by
  obtain ⟨finiteS, nonnegS⟩ := isScale_iff.1 scaled
  obtain ⟨finiteT, one, above⟩ := floor_add_one_bounds finiteS nonnegS
  obtain ⟨finiteQ, nonnegQ, -⟩ := quotient_bounds finite pos.le finiteT one
  obtain ⟨finiteA, nonnegA, fewA⟩ := magnitude_bounds y
  obtain ⟨finiteD, -⟩ := difference_bounds finiteA nonnegA finiteQ nonnegQ (le_max_left _ _)
    (le_max_right _ _)
  have square := rounds_mul finiteD finiteD
  have double := rounds_mul isFinite_two finite
  rw [place_two] at double
  have positive : 0 < place (2 * (scale * scale)) :=
    pos.trans_le (double.ge (grid_place (scale * scale)) (by linarith))
  -- The two parts of the quotient are not both infinite.
  have inner : IsFinite ((ofNat y.toInt.natAbs - scale * scale / (floor scale + 1)) *
      (ofNat y.toInt.natAbs - scale * scale / (floor scale + 1))) ∨
        IsFinite (2 * (scale * scale)) := by
    by_cases small : IsFinite (2 * (scale * scale))
    · exact .inr small
    · have below := square_div_le finiteS nonnegS finite small finiteT above
      obtain ⟨-, few⟩ := difference_bounds finiteA nonnegA finiteQ nonnegQ fewA below
      exact .inl (isFinite_square_of_le finiteD few)
  obtain ⟨number, nonneg⟩ := isNumber_div square.isNumber (square.nonneg (mul_self_nonneg _))
    double.isNumber positive inner
  exact isProbability_exp_neg number nonneg

/-! ## Other squares -/

/-- The exponential of what is no number is no probability. -/
theorem not_isProbability_exp_neg {q : Float} (h : read q = .nan) : ¬ IsProbability (exp (-q)) := by
  refine not_isProbability_of_nan (exp_of_nan ?_)
  rw [read_neg, h]

/-- With an infinite square both parts of the quotient are infinite. -/
theorem acceptance_of_infinite {v t : Float} (hv : read v = .infinite false) (ht : IsFinite t)
    (one : 1 ≤ place t) (y : Int64) : ¬ IsProbability (acceptance v t y) := by
  obtain ⟨finiteA, -, -⟩ := magnitude_bounds y
  have quotient := div_infinite hv ht (by linarith)
  have square := mul_self_infinite (sub_infinite finiteA quotient)
  have double := mul_infinite isFinite_two.isNumber (by norm_num) hv
  exact not_isProbability_exp_neg (infinite_div_infinite square double)

/-- The exponential of an infinity is zero or no probability. -/
theorem exp_neg_of_infinite {q : Float} {n : Bool} (h : read q = .infinite n) :
    ¬ IsProbability (exp (-q)) ∨ exp (-q) = 0 := by
  have reading : read (-q) = .infinite (!n) := by rw [read_neg, h]
  cases n with
  | false =>
    right
    rw [exp, reading]
    rfl
  | true =>
    left
    intro proper
    have closed : read infinity = .infinite false := by decide +kernel
    have top : place (exp (-q)) = limit := by
      rw [exp, reading]
      change (read infinity).place = limit
      rw [closed, Reading.place, signum_false, one_mul]
    have one := (isProbability_iff.1 proper).2.2
    rw [top, limit] at one
    exact absurd one (not_le.2 (one_lt_zpow₀ (by norm_num) (by norm_num)))

/-- With a square of zero the quotient is `0 / 0` for a draw of zero, and infinite for others. -/
theorem acceptance_of_zero {v t : Float} (hv : IsFinite v) (zero : place v = 0) (ht : IsFinite t)
    (one : 1 ≤ place t) (y : Int64) :
    ¬ IsProbability (acceptance v t y) ∨ y ≠ 0 ∧ acceptance v t y = 0 := by
  obtain ⟨finiteA, nonnegA, fewA⟩ := magnitude_bounds y
  obtain ⟨finiteQ, nonnegQ, leQ⟩ := quotient_bounds hv zero.ge ht one
  have zeroQ : place (v / t) = 0 := by linarith
  have difference := rounds_sub finiteA finiteQ
  rw [zeroQ, sub_zero] at difference
  have same := difference.eq (grid_place _)
  obtain ⟨finiteD, small⟩ := difference_bounds finiteA nonnegA finiteQ nonnegQ fewA
    (zeroQ.trans_le (nonnegA.trans fewA))
  have finiteS := isFinite_square_of_le finiteD small
  have square := rounds_mul finiteD finiteD
  rw [same] at square
  have double := rounds_mul isFinite_two hv
  rw [zero, mul_zero] at double
  have finiteV : IsFinite (2 * v) := double.isFinite le_rfl (two_zpow_pos 1023).le
  have zeroV := double.eq grid_zero
  rcases eq_or_ne y 0 with rfl | away
  · left
    rw [Int64.toInt_zero, Int.natAbs_zero, place_ofNat_zero, mul_zero] at square
    exact not_isProbability_exp_neg (zero_div_zero finiteS (square.eq grid_zero) finiteV zeroV)
  · have some : 0 < y.toInt.natAbs := by
      have apart : y.toInt ≠ (0 : Int64).toInt := fun same => away (Int64.toInt_inj.1 same)
      rw [Int64.toInt_zero] at apart
      omega
    have least := one_le_place_ofNat some
    have positive := square.ge grid_one (one_le_mul_of_one_le_of_one_le least least)
    obtain ⟨n, infinite⟩ := div_zero finiteS (by linarith) finiteV zeroV
    exact (exp_neg_of_infinite infinite).imp_right fun none => ⟨away, none⟩

/-! ## The sampler -/

/-- A scale other than zero whose square is rounded to zero or to an infinity. -/
def LosesSquare (scale : Float) : Prop :=
  place scale ≠ 0 ∧ (place (scale * scale) = 0 ∨ ¬ IsFinite (scale * scale))

theorem LosesSquare.nonzero {scale : Float} (loses : LosesSquare scale) : ¬ (scale == 0) = true := by
  intro zero
  have none := (beq_iff.1 zero).2.2
  rw [place_zero] at none
  exact loses.1 none

theorem acceptance_of_losesSquare {scale : Float} (scaled : isScale scale = true)
    (loses : LosesSquare scale) (y : Int64) :
    ¬ IsProbability (acceptance (scale * scale) (floor scale + 1) y) ∨
      y ≠ 0 ∧ acceptance (scale * scale) (floor scale + 1) y = 0 := by
  obtain ⟨finite, nonneg⟩ := isScale_iff.1 scaled
  obtain ⟨finiteT, one, -⟩ := floor_add_one_bounds finite nonneg
  have square := rounds_mul finite finite
  by_cases inner : IsFinite (scale * scale)
  · exact acceptance_of_zero inner (loses.2.resolve_right (not_not.2 inner)) finiteT one y
  · have infinite := square.isNumber.infinite_of_nonneg (square.nonneg (mul_self_nonneg _)) inner
    exact .inl (acceptance_of_infinite infinite finiteT one y)

theorem event_never {p : Float} (h : ¬ IsProbability p ∨ p = 0) (g : Generator) :
    ((drawEvent p).run g).1 ≠ .ok true := by
  rcases h with improper | rfl
  · rw [event_crashes improper]
    simp
  · have none : truncate (0 * 18446744073709551616) = 0 := by decide +kernel
    unfold drawEvent
    rw [if_neg (by decide +kernel), if_pos (by decide +kernel)]
    change Except.ok (decide (((g.word g.drawn).toNat : Int) <
      truncate (0 * 18446744073709551616))) ≠ Except.ok true
    rw [none]
    simp

/-- **`discreteGaussian_never`**: at a scale that loses its square no draw ends with a value. -/
theorem discreteGaussian_never {scale : Float} (scaled : isScale scale = true)
    (loses : LosesSquare scale) (attempts : Nat) :
    AlwaysFails (drawDiscreteGaussian scale attempts) := by
  have loop (attempts : Nat) : AlwaysFails (drawDiscreteGaussianWithin (scale * scale)
      (floor scale + 1) attempts) := by
    induction attempts with
    | zero => exact .throw _
    | succ attempts ih =>
      refine .bind fun _ y _ => .bind fun g kept event => ?_
      have never := (acceptance_of_losesSquare scaled loses y).imp_right And.right
      cases kept with
      | true => exact absurd event (event_never never g)
      | false => exact ih
  unfold drawDiscreteGaussian
  rw [if_neg loses.nonzero]
  exact loop attempts

theorem geometric_zeros (t : Float) (n : Nat) : (drawGeometric t).run ⟨fun _ => 0, n⟩ =
    (.ok (Int64.ofInt (clampedTruncate (-9223372036854775808) 9223372036854775807
      (floor (-t * ln (1 - unitOf 0))))), ⟨fun _ => 0, n + 1⟩) := by
  unfold drawGeometric drawUnit
  rw [run_map, run_map]
  rfl

/-- From a generator of zeros both geometric variables are the same. -/
theorem discreteLaplace_zeros (t : Float) :
    ∃ g, (drawDiscreteLaplace t).run Generator.zeros = (.ok 0, g) := by
  unfold drawDiscreteLaplace
  split
  · exact ⟨_, rfl⟩
  · rw [run_bind, Generator.zeros, geometric_zeros]
    dsimp only
    rw [run_map, geometric_zeros]
    dsimp only [Except.map]
    rw [Word.subClamped, Int.sub_self]
    exact ⟨_, rfl⟩

/-- **`discreteGaussian_crashes`**: and some crash, as all do whose first candidate is zero. -/
theorem discreteGaussian_crashes {scale : Float} (scaled : isScale scale = true)
    (loses : LosesSquare scale) (attempts : Nat) :
    ((drawDiscreteGaussian scale (attempts + 1)).run Generator.zeros).1 = .error .crashed := by
  obtain ⟨g, drawn⟩ := discreteLaplace_zeros (floor scale + 1)
  have improper := (acceptance_of_losesSquare scaled loses 0).resolve_right fun h => h.1 rfl
  unfold drawDiscreteGaussian
  rw [if_neg loses.nonzero, drawDiscreteGaussianWithin, run_bind, drawn]
  dsimp only
  rw [run_bind, event_crashes improper]

/-- **`discreteGaussian_total`**: at every other scale draws fail to end at most. -/
theorem discreteGaussian_total {kind : Fault MechanismError → Prop} (stalls : kind .stalled)
    {scale : Float} (scaled : isScale scale = true) (keeps : ¬ LosesSquare scale)
    (attempts : Nat) : FailsOnly (drawDiscreteGaussian scale attempts) kind := by
  refine failsOnly_discreteGaussian stalls (fun nonzero y => .inl ?_) attempts
  obtain ⟨finite, nonneg⟩ := isScale_iff.1 scaled
  have away : place scale ≠ 0 := mt (beq_zero_iff finite.isNumber).2 nonzero
  have square := rounds_mul finite finite
  have inner : IsFinite (scale * scale) := by
    by_contra infinite
    exact keeps ⟨away, .inr infinite⟩
  refine acceptance_isProbability scaled inner ?_ y
  refine (square.nonneg (mul_self_nonneg _)).lt_of_ne fun zero => ?_
  exact keeps ⟨away, .inl zero.symm⟩

end Noise

end PrivateQuery
