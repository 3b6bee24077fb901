import PrivateQuery.Proofs.Privacy.Budget
import PrivateQuery.Proofs.Privacy.Cost
import PrivateQuery.Proofs.Privacy.Reach

/-!
# Budgets that can be met

A budget affords the noise of a measure if it covers the cost at one of the scales that are finite
doubles (`Budget.Affords`), and then the library finds a scale for it; otherwise there is none
(`calibrated_of_affords`, `calibrated_of_not_affords`). Compatible budgets that afford nothing exist
for both mechanisms: an `ε` below the inverse of the last scale, and a `δ` whose inverse is infinite.
-/
namespace PrivateQuery

open Assembly Binary64

/-- A budget can pay for hiding moves up to a size. Laplace noise costs its `ε` in proportion.
Gaussian noise is free where the square of its ratio vanishes, and elsewhere takes a `δ` that has an
inverse. -/
inductive Budget.Affords (budget : Budget) : Mechanism → ℝ → Prop where
  | laplace {move : ℝ} (pays : move ≤ 2 ^ 1023 * place budget.epsilon) :
    budget.Affords .laplace move
  | gaussian {move : ℝ} (pays : 1 < 2 ^ 1024 * place budget.delta ∨ move ^ 2 < 3 * 2 ^ 971) :
    budget.Affords .gaussian move

theorem affords_laplace {budget : Budget} {move : ℝ} :
    budget.Affords .laplace move ↔ move ≤ 2 ^ 1023 * place budget.epsilon :=
  ⟨fun | .laplace pays => pays, .laplace⟩

theorem affords_gaussian {budget : Budget} {move : ℝ} :
    budget.Affords .gaussian move ↔
      1 < 2 ^ 1024 * place budget.delta ∨ move ^ 2 < 3 * 2 ^ 971 :=
  ⟨fun | .gaussian pays => pays, .gaussian⟩

/-- The `ε` that noise at a scale costs. -/
def Budget.cost (budget : Budget) (mechanism : Mechanism) (sensitivity scale : Float) : Float :=
  match mechanism with
  | .laplace => Noise.ratio sensitivity scale
  | .gaussian => Loss.epsilonOf (Loss.rho (Noise.ratio sensitivity scale)) budget.delta

/-- A sensitivity that is one, or not far too large for the budget. -/
structure Budget.Moderate (budget : Budget) (sensitivity : Float) : Prop where
  finite : IsFinite sensitivity
  nonneg : 0 ≤ place sensitivity
  bounded : place sensitivity = 1 ∨ place sensitivity ≤ 2 ^ 1000 * place budget.epsilon

variable {budget : Budget} {notion : Notion} {mechanism : Mechanism} {pending : Pending}
  {calibration : Parameters} {scale : Float}

/-! ## Acceptance -/

/-- At a scale the noise can be added. -/
theorem addNoise_standard (t : Transformation) (discrete : Bool) (scaled : isScale scale = true) :
    (Library.standard calibration).addNoise t mechanism discrete scale =
      .ok ⟨t, ⟨mechanism, discrete, scale, scaled⟩, none⟩ := by
  simp [Library.standard, Noise.ofScale, scaled, Attempt.ofExcept, bind, Except.bind, pure,
    Except.pure]

/-- On scales the test of the search always answers: it compares the cost with the budget. -/
theorem accepts_eq (compatible : checkCompatibility budget notion mechanism = .ok ())
    (scaled : isScale scale = true) :
    Library.accepts (measurementAt (.standard calibration) budget notion mechanism pending) 1
        (target budget notion) scale =
      .ok (decide (budget.cost mechanism (pending.transformation.stability 1) scale ≤
        budget.epsilon)) := by
  rw [Library.accepts, measurementAt, addNoise_standard _ _ scaled]
  rcases (compatible_cases compatible).2 with
    ⟨rfl, noDelta⟩ | ⟨rfl, rfl, positive, belowOne⟩
  · have spares : spendsDelta budget notion = false := not_spendsDelta noDelta
    change _ = Except.ok (decide (Noise.ratio _ scale ≤ budget.epsilon))
    cases notion <;> simp [spares, bind, Except.bind, pure, Except.pure, Measurement.loss,
      Noise.loss_eq, Attempt.ofExcept, Loss.within, Loss.within?, target]
  · have spends : spendsDelta budget .approxDP = true := by simp [spendsDelta, positive]
    have same : budget.delta ≤ budget.delta :=
      le_iff.2 ⟨(lt_iff.1 positive).2.1, (lt_iff.1 positive).2.1, le_rfl⟩
    change _ = Except.ok (decide (Loss.epsilonOf (Loss.rho (Noise.ratio _ scale)) budget.delta ≤
      budget.epsilon))
    simp [spends, bind, Except.bind, Measurement.fixDelta, positive, belowOne, Measurement.loss,
      Noise.loss_eq, Attempt.ofExcept, Loss.within, Loss.within?, target, same]

/-! ## Calibration -/

theorem calibrate_standard (measurementAt : Float → Mechanism.Attempt Measurement) (rows : Float)
    (target : Loss) : (Library.standard .standard).calibrate measurementAt rows target =
      Calibration.search (m := Except (Fault MechanismError))
        (fun failure => .error (.raised (Library.calibrationError 1024 failure)))
        (Library.accepts measurementAt rows target) Parameters.standard.tolerance 1024 := rfl

theorem tolerance_pos : 0 < Parameters.standard.tolerance := by decide +kernel

/-- The cost at the last power of two decides that there is a scale. -/
theorem calibrated_ok (compatible : checkCompatibility budget notion mechanism = .ok ())
    (last : ∀ scale, IsFinite scale → place scale = 2 ^ 1023 →
      budget.cost mechanism (pending.transformation.stability 1) scale ≤ budget.epsilon) :
    ∃ measurement, calibrated (.standard .standard) budget notion mechanism pending =
      .ok measurement := by
  have accepted (scale : Float) (finite : IsFinite scale) (power : place scale = 2 ^ 1023) :
      Library.accepts (measurementAt (.standard .standard) budget notion mechanism pending) 1
        (target budget notion) scale = .ok true := by
    have scaled : isScale scale = true := isScale_iff.2 ⟨finite, by rw [power]; positivity⟩
    rw [accepts_eq compatible scaled, decide_eq_true (last scale finite power)]
  obtain ⟨scale, found⟩ : ∃ scale, (Library.standard .standard).calibrate
      (measurementAt (.standard .standard) budget notion mechanism pending) 1
      (target budget notion) = .ok scale := by
    rw [calibrate_standard]
    exact Calibration.search_reaches (fun _ scaled => ⟨_, accepts_eq compatible scaled⟩)
      tolerance_pos accepted
  obtain ⟨measurement, -, made, -, -⟩ := accepts_eq_ok_true (accepts_of_calibrate found)
  exact ⟨measurement, bind_eq_ok.2 ⟨scale, found, made⟩⟩

/-- The costs at the powers of two decide that there is none. -/
theorem calibrated_exhausted (compatible : checkCompatibility budget notion mechanism = .ok ())
    (none : ∀ i ≤ 1023, ∀ scale, IsFinite scale → place scale = 2 ^ i →
      ¬ budget.cost mechanism (pending.transformation.stability 1) scale ≤ budget.epsilon) :
    calibrated (.standard .standard) budget notion mechanism pending =
      .error (.raised .noFiniteScale) := by
  have refused (i : ℕ) (range : i ≤ 1023) (scale : Float) (finite : IsFinite scale)
      (power : place scale = 2 ^ i) :
      Library.accepts (measurementAt (.standard .standard) budget notion mechanism pending) 1
        (target budget notion) scale = .ok false := by
    have scaled : isScale scale = true := isScale_iff.2 ⟨finite, by rw [power]; positivity⟩
    rw [accepts_eq compatible scaled, decide_eq_false (none i range scale finite power)]
  have exhausted : (Library.standard .standard).calibrate
      (measurementAt (.standard .standard) budget notion mechanism pending) 1
      (target budget notion) = .error (.raised .noFiniteScale) := by
    rw [calibrate_standard]
    exact Calibration.search_exhausts tolerance_pos refused
  exact congrArg (· >>= _) exhausted

/-! ## Costs at the powers of two -/

section
variable {sensitivity r : Float}

theorem finite_epsilon (compatible : checkCompatibility budget notion mechanism = .ok ()) :
    IsFinite budget.epsilon ∧ 0 < place budget.epsilon := by
  obtain ⟨⟨finite, pos⟩, -⟩ := compatible_cases compatible
  exact ⟨isFinite_iff.1 finite, by simpa using (lt_iff.1 pos).2.2⟩

theorem finite_delta (pos : 0 < budget.delta) (belowOne : budget.delta < 1) :
    IsFinite budget.delta ∧ 0 < place budget.delta ∧ place budget.delta ≤ 1 := by
  have pos' : 0 < place budget.delta := by simpa using (lt_iff.1 pos).2.2
  have one : place budget.delta < 1 := by simpa using (lt_iff.1 belowOne).2.2
  refine ⟨(lt_iff.1 pos).2.1.isFinite ?_, pos', one.le⟩
  rw [abs_of_pos pos', limit_eq_pow]
  exact one.trans_le (one_le_pow₀ (by norm_num))

/-- A moderate sensitivity whose square is not below the threshold is no more than the guard of sums
lets through, and costs little at the last power of two. -/
theorem gaussian_cost_le (moderate : budget.Moderate sensitivity)
    (large : ¬ place sensitivity ^ 2 < 3 * 2 ^ 971)
    (h : Rounds (place sensitivity / 2 ^ 1023) r) (cost : ℝ) (le : cost ≤ 2 ^ 11 * place r) :
    cost ≤ place budget.epsilon := by
  obtain ⟨-, nonneg, bounded⟩ := moderate
  have last : (0 : ℝ) < 2 ^ 1023 := by positivity
  have most : (1 : ℝ) ≤ 2 ^ 971 := one_le_pow₀ (by norm_num)
  have guarded : place sensitivity ≤ 2 ^ 1000 * place budget.epsilon :=
    bounded.resolve_left fun unit => large <|
      (pow_le_one₀ nonneg unit.le).trans_lt (one_lt_mul_of_lt_of_le (by norm_num) most)
  have double := h.le_two_mul (by positivity)
  have split : place sensitivity / 2 ^ 1023 ≤ place budget.epsilon / 2 ^ 23 := by
    rw [div_le_div_iff₀ last (by positivity), show 1023 = 1000 + 23 by norm_num, pow_add,
      ← mul_assoc, mul_comm (place budget.epsilon)]
    exact mul_le_mul_of_nonneg_right guarded (by positivity)
  have low : 0 ≤ place sensitivity / 2 ^ 1023 := by positivity
  generalize place sensitivity / 2 ^ 1023 = q at double split low
  linarith only [le, double, split, low]

/-- What a budget affords costs at most its `ε` at the last power of two. -/
theorem cost_le_of_affords (compatible : checkCompatibility budget notion mechanism = .ok ())
    (moderate : budget.Moderate sensitivity)
    (affords : budget.Affords mechanism (place sensitivity)) (fs : IsFinite scale)
    (power : place scale = 2 ^ 1023) : budget.cost mechanism sensitivity scale ≤ budget.epsilon := by
  obtain ⟨finite, nonneg, -⟩ := id moderate
  obtain ⟨finiteE, posE⟩ := finite_epsilon compatible
  have ratio := rounds_ratio finite fs (by rw [power]; positivity)
  rw [power] at ratio
  rcases (compatible_cases compatible).2 with ⟨rfl, -⟩ | ⟨rfl, -, posD, belowOne⟩
  · refine le_iff.2 ⟨ratio.isNumber, finiteE.isNumber, ratio.le (grid_place _) ?_⟩
    rw [div_le_iff₀ (by positivity), mul_comm]
    exact affords_laplace.1 affords
  · have fr := finite_ratio finite nonneg ratio
    by_cases small : place sensitivity ^ 2 < 3 * 2 ^ 971
    · -- Nothing is lost.
      have free : budget.cost .gaussian sensitivity scale = 0 := by
        rw [Budget.cost, Loss.epsilonOf, if_pos (rho_zero fr (sq_ratio_lt ratio nonneg small))]
      rw [free]
      exact le_iff.2 ⟨isFinite_zero.isNumber, finiteE.isNumber, by simpa using posE.le⟩
    · obtain ⟨finiteD, posD', one⟩ := finite_delta posD belowOne
      obtain ⟨number, le⟩ := epsilonOf_le fr (ratio.nonneg (by positivity))
        (last_ratio_le finite nonneg ratio) finiteD posD' ((affords_gaussian.1 affords).resolve_right small) one
      exact le_iff.2 ⟨number, finiteE.isNumber, gaussian_cost_le moderate small ratio _ le⟩

/-- What a budget does not afford costs more than its `ε` at every power of two. -/
theorem lt_cost_of_not_affords (compatible : checkCompatibility budget notion mechanism = .ok ())
    (moderate : budget.Moderate sensitivity)
    (unaffordable : ¬ budget.Affords mechanism (place sensitivity)) {i : ℕ} (range : i ≤ 1023)
    (fs : IsFinite scale) (power : place scale = 2 ^ i) :
    ¬ budget.cost mechanism sensitivity scale ≤ budget.epsilon := by
  obtain ⟨finite, nonneg, bounded⟩ := moderate
  obtain ⟨finiteE, posE⟩ := finite_epsilon compatible
  have ratio := rounds_ratio finite fs (by rw [power]; positivity)
  rw [power] at ratio
  intro within
  have le := (le_iff.1 within).2.2
  rcases (compatible_cases compatible).2 with ⟨rfl, -⟩ | ⟨rfl, -, posD, belowOne⟩
  · -- A sum would be affordable, and the ratio of a count is not rounded.
    rw [affords_laplace] at unaffordable
    have unit : place sensitivity = 1 := by
      refine bounded.resolve_right fun guarded => unaffordable (guarded.trans ?_)
      refine mul_le_mul_of_nonneg_right ?_ posE.le
      exact pow_le_pow_right₀ (by norm_num) (by norm_num)
    have more := not_le.1 unaffordable
    have grid : Grid (1 / 2 ^ 1023) := by
      have power := grid_zpow (k := -1023) (by norm_num) (by norm_num)
      rwa [zpow_neg, ← one_div, zpow_ofNat] at power
    have wider : (1 : ℝ) / 2 ^ 1023 ≤ 1 / 2 ^ i :=
      one_div_le_one_div_of_le (by positivity) (pow_le_pow_right₀ (by norm_num) range)
    rw [unit] at more ratio
    have above := (ratio.ge grid wider).trans le
    rw [div_le_iff₀ (by positivity), mul_comm] at above
    exact absurd above (not_le.2 more)
  · -- The loss is infinite.
    rw [affords_gaussian] at unaffordable
    obtain ⟨small, large⟩ := not_or.1 unaffordable
    obtain ⟨finiteD, posD', -⟩ := finite_delta posD belowOne
    obtain ⟨number, positive⟩ := rho_pos (finite_ratio finite nonneg ratio)
      (lt_sq_ratio ratio nonneg range (not_lt.1 large))
    have infinite := epsilonOf_infinite number positive finiteD posD' (not_lt.1 small)
    have top : place (budget.cost .gaussian sensitivity scale) = limit := by
      rw [Budget.cost, place, infinite, Reading.place, signum_false, one_mul]
    rw [top] at le
    exact absurd finiteE.place_lt (not_lt.2 le)

end

/-- **`calibrated_of_affords`**: a measure of moderate sensitivity has a scale if the budget affords
it. -/
theorem calibrated_of_affords (compatible : checkCompatibility budget notion mechanism = .ok ())
    (moderate : budget.Moderate (pending.transformation.stability 1))
    (affords : budget.Affords mechanism (place (pending.transformation.stability 1))) :
    ∃ measurement, calibrated (.standard .standard) budget notion mechanism pending =
      .ok measurement :=
  calibrated_ok compatible fun _ fs power =>
    cost_le_of_affords compatible moderate affords fs power

/-- **`calibrated_of_not_affords`**: otherwise there is none. -/
theorem calibrated_of_not_affords (compatible : checkCompatibility budget notion mechanism = .ok ())
    (moderate : budget.Moderate (pending.transformation.stability 1))
    (unaffordable : ¬ budget.Affords mechanism (place (pending.transformation.stability 1))) :
    calibrated (.standard .standard) budget notion mechanism pending =
      .error (.raised .noFiniteScale) :=
  calibrated_exhausted compatible fun _ range _ fs power =>
    lt_cost_of_not_affords compatible moderate unaffordable range fs power

end PrivateQuery
