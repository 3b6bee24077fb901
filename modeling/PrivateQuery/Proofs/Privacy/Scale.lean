import PrivateQuery.Proofs.Binary64.Special
import PrivateQuery.Proofs.Noise.Acceptance
import PrivateQuery.Proofs.Privacy.Affordability

/-!
# Calibrated scales and their squares

Noise that hides nothing is within every budget, so the search never meets a scale that it refuses:
it halves until its steps are used up, and what it returns is `2 ^ -1025` (`scale_of_zero`), whose
square is zero as a double. Noise that hides at least one has an infinite cost at every scale whose
square is zero, so no such scale is accepted (`square_pos_of_cost_le`). Between them these settle
which calibrated scales lose their squares (`losesSquare_iff`).
-/
namespace PrivateQuery

open Assembly Binary64

/-! ## Halving -/

namespace Calibration

open Position

variable {ε : Type} {tolerance : Float} {accepted : Bool} {p q : Position Float}

theorem half_power {x : Float} {k : ℤ} (finite : IsFinite x) (power : place x = 2 ^ k)
    (least : -1073 ≤ k) (most : k ≤ 0) :
    IsFinite (Scalar.half x) ∧ place (Scalar.half x) = 2 ^ (k - 1) := by
  have half := rounds_half finite
  rw [power, div_eq_mul_inv, ← zpow_sub_one₀ (by norm_num) k] at half
  have scaled : isScale x = true := isScale_iff.2 ⟨finite, by rw [power]; positivity⟩
  exact ⟨(isScale_iff.1 (isScale_half scaled).1).1, half.eq (grid_zpow (by omega) (by omega))⟩

/-- Where no scale is refused, every step halves. -/
inductive Halving : Position Float → Prop where
  | start : Halving (.raising 1024 1)
  | lowering {steps : ℕ} {upper next : Float} (finite : IsFinite next)
      (power : place next = 2 ^ ((steps : ℤ) - 1025)) (within : steps ≤ 1024) :
      Halving (.lowering steps upper next)

theorem Halving.isScale_scale (halving : Halving p) : isScale p.scale = true := by
  cases halving with
  | start => exact isScale_iff.2 ⟨isFinite_one, by simp [scale]⟩
  | lowering finite power within =>
    refine isScale_iff.2 ⟨finite, ?_⟩
    rw [scale, power]
    exact (two_zpow_pos _).le

theorem Halving.onward (halving : Halving p) (onward : Onward tolerance true p (.inl q)) :
    Halving q := by
  cases halving with
  | start =>
    cases onward with
    | turned =>
      obtain ⟨finite, power⟩ := half_power (k := 0) isFinite_one (by simp) (by norm_num) le_rfl
      exact .lowering finite (by simpa using power) le_rfl
    | bisected brackets => exact nomatch brackets
  | lowering finite power within =>
    cases onward with
    | halved positive =>
      obtain ⟨finite', power'⟩ := half_power finite power (by omega) (by omega)
      exact .lowering finite' (by rw [power']; congr 1; push_cast; ring) (by omega)
    | bisected brackets => exact nomatch brackets

/-- **`search_halves`**: a test that accepts every scale leads the search to `2 ^ -1025`. -/
theorem search_halves {e : Failure Float → ε} {test : Float → Except ε Bool}
    (accepts : ∀ s, isScale s = true → test s = .ok true) (pos : 0 < tolerance) :
    ∃ s, search (m := Except ε) (fun failure => .error (e failure)) test tolerance 1024 = .ok s ∧
      IsFinite s ∧ place s = 2 ^ (-1025 : ℤ) := by
  have halves {p q : Position Float} {accepted : Bool} (halving : Halving p)
      (answer : test p.scale = .ok accepted) (onward : Onward tolerance accepted p (.inl q)) :
      Halving q := by
    obtain rfl := Except.ok.inj ((accepts _ halving.isScale_scale).symm.trans answer)
    exact halving.onward onward
  obtain ⟨p, ended, halving, final, same⟩ := search_last e halves .start pos
  rw [same]
  cases final with
  | failed refused => exact nomatch (accepts _ halving.isScale_scale).symm.trans refused
  | ended answer onward =>
    obtain rfl := Except.ok.inj ((accepts _ halving.isScale_scale).symm.trans answer)
    cases halving with
    | start =>
      cases onward with
      | cut brackets => exact nomatch brackets
      | narrow brackets => exact nomatch brackets
    | lowering finite power within =>
      cases onward with
      | exhausted => exact ⟨_, rfl, finite, by simpa using power⟩
      | zero nonpos =>
        refine absurd (lt_iff.2 ⟨isFinite_zero.isNumber, finite.isNumber, ?_⟩) nonpos
        rw [place_zero, power]
        exact two_zpow_pos _
      | cut brackets => exact nomatch brackets
      | narrow brackets => exact nomatch brackets

end Calibration

variable {budget : Budget} {notion : Notion} {mechanism : Mechanism} {pending : Pending}
  {sensitivity scale : Float} {measurement : Measurement}

/-! ## Noise that hides nothing -/

/-- What hides nothing costs nothing, at every scale. -/
theorem cost_zero (finite : IsFinite sensitivity) (zero : place sensitivity = 0) :
    budget.cost mechanism sensitivity scale = 0 := by
  have same : (sensitivity == 0) = true := (beq_zero_iff finite.isNumber).2 zero
  have ratio : Noise.ratio sensitivity scale = 0 := by rw [Noise.ratio, if_pos same]
  have closed : (Loss.rho 0 == 0) = true := by decide +kernel
  cases mechanism with
  | laplace => exact ratio
  | gaussian =>
    rw [Budget.cost, ratio]
    exact if_pos closed

theorem scale_of_calibrated {calibration : Parameters}
    (h : calibrated (.standard calibration) budget notion mechanism pending = .ok measurement) :
    (Library.standard calibration).calibrate
        (measurementAt (.standard calibration) budget notion mechanism pending) 1
        (target budget notion) = .ok measurement.noise.scale ∧
      measurement.transformation = pending.transformation ∧
      measurement.noise.mechanism = mechanism ∧ measurement.noise.discrete = pending.discrete := by
  obtain ⟨scale, found, made⟩ := bind_eq_ok.1 h
  obtain ⟨transformation, of_mechanism, discrete, rfl, -⟩ := measurementAt_standard_eq_ok made
  exact ⟨found, transformation, of_mechanism, discrete⟩

/-- **`scale_of_zero`**: noise that hides nothing is calibrated to `2 ^ -1025`. -/
theorem scale_of_zero (compatible : checkCompatibility budget notion mechanism = .ok ())
    (finite : IsFinite (pending.transformation.stability 1))
    (zero : place (pending.transformation.stability 1) = 0)
    (h : calibrated (.standard .standard) budget notion mechanism pending = .ok measurement) :
    place measurement.noise.scale = 2 ^ (-1025 : ℤ) := by
  obtain ⟨finiteE, posE⟩ := finite_epsilon compatible
  have free : (0 : Float) ≤ budget.epsilon :=
    le_iff.2 ⟨isFinite_zero.isNumber, finiteE.isNumber, by rw [place_zero]; exact posE.le⟩
  have accepts (s : Float) (scaled : isScale s = true) :
      Library.accepts (measurementAt (.standard .standard) budget notion mechanism pending) 1
        (target budget notion) s = .ok true := by
    rw [accepts_eq compatible scaled, cost_zero finite zero, decide_eq_true free]
  obtain ⟨found, -⟩ := scale_of_calibrated h
  obtain ⟨s, found', -, power⟩ := Calibration.search_halves
    (e := fun failure => .raised (Library.calibrationError 1024 failure)) accepts tolerance_pos
  rw [calibrate_standard, found', Except.ok.injEq] at found
  rw [← found, power]

/-- Its square is rounded to zero. -/
theorem square_of_least (finite : IsFinite scale) (power : place scale = 2 ^ (-1025 : ℤ)) :
    place (scale * scale) = 0 := by
  have square := rounds_mul finite finite
  rw [power, ← zpow_add₀ (by norm_num)] at square
  have low := square.nonneg (by positivity)
  have high := square.le_two_mul (by positivity)
  have tiny : 2 * (2 : ℝ) ^ (-1025 + -1025 : ℤ) < 2 ^ (-1074 : ℤ) := by
    rw [← zpow_one_add₀ (by norm_num)]
    exact zpow_lt_zpow_right₀ (by norm_num) (by norm_num)
  -- No double is strictly between zero and the least step.
  obtain ⟨k, multiple⟩ := (grid_place (scale * scale)).multiple
  have unit := two_zpow_pos (-1074)
  rw [multiple] at low high
  have nonneg : 0 ≤ k := by exact_mod_cast nonneg_of_mul_nonneg_left low unit
  have less : k < 1 := by
    have below : (k : ℝ) * 2 ^ (-1074 : ℤ) < 1 * 2 ^ (-1074 : ℤ) := by
      rw [one_mul]
      exact high.trans_lt tiny
    exact_mod_cast lt_of_mul_lt_mul_right below unit.le
  obtain rfl : k = 0 := by omega
  rw [multiple, Int.cast_zero, zero_mul]

/-! ## Noise that hides something -/

theorem lt_of_square_zero (scaled : isScale scale = true) (zero : place (scale * scale) = 0) :
    place scale < 2 ^ (-537 : ℤ) := by
  obtain ⟨finite, nonneg⟩ := isScale_iff.1 scaled
  have square := rounds_mul finite finite
  by_contra! large
  have units : (2 : ℝ) ^ (-1074 : ℤ) = 2 ^ (-537 : ℤ) * 2 ^ (-537 : ℤ) := by
    rw [← zpow_add₀ (by norm_num)]
    norm_num
  have above := square.ge (grid_zpow (k := -1074) le_rfl (by norm_num)) <| by
    rw [units]
    exact mul_le_mul large large (two_zpow_pos _).le nonneg
  rw [zero] at above
  exact absurd (two_zpow_pos (-1074)) (not_lt.2 above)

/-- The square of the ratio of what is at least one to such a scale is infinite. -/
theorem square_ratio_infinite (finite : IsFinite sensitivity) (one : 1 ≤ place sensitivity)
    (scaled : isScale scale = true) (zero : place (scale * scale) = 0) :
    read (Noise.ratio sensitivity scale * Noise.ratio sensitivity scale) = .infinite false := by
  obtain ⟨finiteS, nonneg⟩ := isScale_iff.1 scaled
  have some : ¬ (sensitivity == 0) = true := by
    rw [beq_zero_iff finite.isNumber]
    linarith
  rcases nonneg.eq_or_lt with none | pos
  · rw [Noise.ratio, if_neg some]
    obtain ⟨n, infinite⟩ := div_zero finite (by linarith) finiteS none.symm
    exact mul_self_infinite infinite
  · have ratio := rounds_ratio finite finiteS pos
    have small := lt_of_square_zero scaled zero
    have large : (2 : ℝ) ^ (537 : ℤ) ≤ place sensitivity / place scale := by
      rw [le_div_iff₀ pos]
      calc (2 : ℝ) ^ (537 : ℤ) * place scale ≤ 2 ^ (537 : ℤ) * 2 ^ (-537 : ℤ) :=
            mul_le_mul_of_nonneg_left small.le (two_zpow_pos _).le
        _ = 1 := by
            rw [← zpow_add₀ (by norm_num)]
            norm_num
        _ ≤ place sensitivity := one
    have above := ratio.ge (grid_zpow (by norm_num) (by norm_num)) large
    by_cases inner : IsFinite (Noise.ratio sensitivity scale)
    · have square := rounds_mul inner inner
      refine read_eq_infinite square.isNumber (square.eq_limit ?_)
      calc limit ≤ 2 ^ (537 : ℤ) * 2 ^ (537 : ℤ) := by
            rw [limit, ← zpow_add₀ (by norm_num)]
            exact zpow_le_zpow_right₀ (by norm_num) (by norm_num)
        _ ≤ _ := mul_le_mul above above (two_zpow_pos _).le ((two_zpow_pos _).le.trans above)
    · exact mul_self_infinite
        (ratio.isNumber.infinite_of_nonneg ((two_zpow_pos _).le.trans above) inner)

/-- **`square_pos_of_cost_le`**: Gaussian noise that hides at least one has a scale whose square is
positive. -/
theorem square_pos_of_cost_le (finite : IsFinite sensitivity) (one : 1 ≤ place sensitivity)
    (scaled : isScale scale = true) (positive : 0 < place budget.delta)
    (finiteE : IsFinite budget.epsilon)
    (le : budget.cost .gaussian sensitivity scale ≤ budget.epsilon) : 0 < place (scale * scale) := by
  obtain ⟨finiteS, nonneg⟩ := isScale_iff.1 scaled
  have square := rounds_mul finiteS finiteS
  refine (square.nonneg (mul_self_nonneg _)).lt_of_ne fun zero => ?_
  have infinite := square_ratio_infinite finite one scaled zero.symm
  have rho : read (Loss.rho (Noise.ratio sensitivity scale)) = .infinite false :=
    div_infinite infinite isFinite_two (by norm_num)
  have top : 0 < place (Loss.rho (Noise.ratio sensitivity scale)) := by
    rw [place, rho, Reading.place, signum_false, one_mul]
    exact limit_pos
  obtain ⟨number, -, below⟩ := le_iff.1 le
  rw [Budget.cost, epsilonOf_eq top positive] at number below
  rcases infinite_add rho with none | infinite'
  · exact number none
  · rw [place, infinite', Reading.place, signum_false, one_mul] at below
    exact absurd finiteE.place_lt (not_lt.2 below)

/-- **`losesSquare_iff`**: where the sensitivity of Gaussian noise is zero or at least one, its
calibrated scale loses its square exactly if the noise hides nothing or the scale is at least
`2 ^ 512`. -/
theorem losesSquare_iff (compatible : checkCompatibility budget notion .gaussian = .ok ())
    (finite : IsFinite (pending.transformation.stability 1))
    (whole : place (pending.transformation.stability 1) = 0 ∨
      1 ≤ place (pending.transformation.stability 1))
    (h : calibrated (.standard .standard) budget notion .gaussian pending = .ok measurement) :
    Noise.LosesSquare measurement.noise.scale ↔
      place (pending.transformation.stability 1) = 0 ∨
        2 ^ (512 : ℤ) ≤ place measurement.noise.scale := by
  have scaled := measurement.noise.isScale_scale
  obtain ⟨finiteS, nonneg⟩ := isScale_iff.1 scaled
  rcases whole with zero | one
  · have power := scale_of_zero compatible finite zero h
    have away : place measurement.noise.scale ≠ 0 := by
      rw [power]
      exact (two_zpow_pos _).ne'
    exact ⟨fun _ => .inl zero, fun _ => ⟨away, .inl (square_of_least finiteS power)⟩⟩
  · obtain ⟨found, -⟩ := scale_of_calibrated h
    have accepted := accepts_of_calibrate found
    rw [accepts_eq compatible scaled, Except.ok.injEq, decide_eq_true_eq] at accepted
    obtain ⟨finiteE, -⟩ := finite_epsilon compatible
    have positive : 0 < place budget.delta := by
      rcases (compatible_cases compatible).2 with ⟨laplace, -⟩ | ⟨-, -, pos, belowOne⟩
      · simp at laplace
      · exact (finite_delta pos belowOne).2.1
    have square := square_pos_of_cost_le finite one scaled positive finiteE accepted
    constructor
    · rintro ⟨-, none | infinite⟩
      · exact absurd none square.ne'
      · right
        by_contra! small
        exact infinite ((isFinite_square_iff finiteS nonneg).2 small)
    · rintro (none | large)
      · linarith
      · refine ⟨((two_zpow_pos 512).trans_le large).ne', .inr fun inner => ?_⟩
        exact absurd ((isFinite_square_iff finiteS nonneg).1 inner) (not_lt.2 large)

end PrivateQuery
