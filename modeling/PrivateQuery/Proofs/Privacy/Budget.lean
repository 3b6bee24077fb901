import PrivateQuery.Proofs.Binary64.Order
import PrivateQuery.Proofs.Pipeline.Agreement

/-!
# Losses within the budget

A measurement that the library of this project calibrates has a loss within the budget, whatever the
parameters of the search (`calibrated_covers`): the search accepts a scale only after comparing the
loss at that scale with the budget, and the measurement is made anew at just that scale. So the
pipeline of every query spends at most its budget, in the measure that belongs to its mechanism
(`pipeline_covers`).
-/
namespace PrivateQuery

open Assembly

/-- A budget covers a loss: Laplace noise is paid in `ε` alone, Gaussian noise in `ε` and the whole
`δ` of the budget. -/
inductive Budget.Covers (budget : Budget) (notion : Notion) : Mechanism → Loss → Prop where
  | laplace {e : Float} (noDelta : (budget.delta == 0) = true) (within : e ≤ budget.epsilon) :
      Covers budget notion .laplace (.pure e)
  | gaussian {e : Float} (approx : notion = .approxDP) (positive : 0 < budget.delta)
      (belowOne : budget.delta < 1) (within : e ≤ budget.epsilon) :
      Covers budget notion .gaussian (.approximate e budget.delta)

variable {budget : Budget} {notion : Notion} {mechanism : Mechanism}

/-! ## Compatibility -/

/-- A budget that is accepted has a usable `ε`, and a `δ` exactly when the noise is Gaussian. -/
theorem compatible_cases (h : checkCompatibility budget notion mechanism = .ok ()) :
    (budget.epsilon.isFinite = true ∧ 0 < budget.epsilon) ∧
      ((mechanism = .laplace ∧ (budget.delta == 0) = true) ∨
        (mechanism = .gaussian ∧ notion = .approxDP ∧ 0 < budget.delta ∧ budget.delta < 1)) := by
  unfold checkCompatibility at h
  dsimp only at h
  split_ifs at h with epsilon delta pureDelta laplaceDelta noDelta notPure
  refine ⟨epsilon, ?_⟩
  obtain ⟨nonneg, belowOne⟩ := delta
  cases mechanism with
  | laplace =>
    exact .inl ⟨rfl, Binary64.beq_zero_of_not_lt nonneg fun positive => laplaceDelta ⟨rfl, positive⟩⟩
  | gaussian =>
    have approx : notion = .approxDP := by
      cases notion with
      | pureDP => exact absurd ⟨rfl, rfl⟩ notPure
      | approxDP => rfl
    have positive : 0 < budget.delta := Decidable.byContradiction fun notPos =>
      noDelta ⟨rfl, Binary64.beq_zero_of_not_lt nonneg notPos⟩
    exact .inr ⟨rfl, approx, positive, belowOne⟩

/-- Without a `δ` there is none to state the loss for. -/
theorem not_spendsDelta (h : (budget.delta == 0) = true) : spendsDelta budget notion = false := by
  have notPos : ¬ 0 < budget.delta := fun positive =>
    ((Binary64.lt_iff.1 positive).2.2).ne (Binary64.beq_iff.1 h).2.2.symm
  simp [spendsDelta, notPos]

/-! ## Measurements at a scale -/

variable {calibration : Parameters} {pending : Pending} {scale : Float} {measurement : Measurement}

/-- What a measurement at a scale is made of. -/
theorem measurementAt_standard_eq_ok
    (h : measurementAt (.standard calibration) budget notion mechanism pending scale =
      .ok measurement) :
    measurement.transformation = pending.transformation ∧
      measurement.noise.mechanism = mechanism ∧ measurement.noise.discrete = pending.discrete ∧
      measurement.noise.scale = scale ∧
      measurement.delta? = if spendsDelta budget notion then some budget.delta else none := by
  obtain ⟨plain, made, h⟩ := bind_eq_ok.1 h
  simp only [Library.standard, Attempt.ofExcept_eq_ok, bind_eq_ok, pure_eq_ok] at made
  obtain ⟨noise, scaled, rfl⟩ := made
  unfold Noise.ofScale at scaled
  split at scaled
  · cases scaled
    split at h
    · rename_i spends
      rw [Attempt.ofExcept_eq_ok, Measurement.fixDelta] at h
      split_ifs at h
      cases h
      simp [spends]
    · rename_i spares
      rw [pure_eq_ok] at h
      subst h
      simp [spares]
  · simp at scaled

theorem accepts_eq_ok_true {measurementAt : Float → Mechanism.Attempt Measurement} {rows : Float}
    {target : Loss} (h : Library.accepts measurementAt rows target scale = .ok true) :
    ∃ measurement loss, measurementAt scale = .ok measurement ∧ measurement.loss rows = .ok loss ∧
      loss.within target = .ok true := by
  obtain ⟨measurement, made, h⟩ := bind_eq_ok.1 h
  obtain ⟨loss, lost, h⟩ := bind_eq_ok.1 h
  rw [Attempt.ofExcept_eq_ok] at lost h
  exact ⟨measurement, loss, made, lost, h⟩

/-- Calibrating is the search, with its failures as errors of the library. -/
theorem calibrate_eq_search (measurementAt : Float → Mechanism.Attempt Measurement) (rows : Float)
    (target : Loss) : (Library.standard calibration).calibrate measurementAt rows target =
      Calibration.search (m := Except (Fault MechanismError))
        (fun failure => .error
          (.raised (Library.calibrationError calibration.calibrationSteps failure)))
        (Library.accepts measurementAt rows target) calibration.tolerance
        calibration.calibrationSteps := rfl

theorem accepts_of_calibrate {measurementAt : Float → Mechanism.Attempt Measurement} {rows : Float}
    {target : Loss} (h : (Library.standard calibration).calibrate measurementAt rows target =
      .ok scale) : Library.accepts measurementAt rows target scale = .ok true := by
  rw [calibrate_eq_search] at h
  exact Calibration.search_accepted h

/-! ## Calibrated measurements -/

/-- The loss of a measurement that is within the target of the budget is covered by the budget. -/
theorem covers_of_within {loss : Loss}
    (compatible : checkCompatibility budget notion mechanism = .ok ())
    (of_mechanism : measurement.noise.mechanism = mechanism)
    (delta? : measurement.delta? = if spendsDelta budget notion then some budget.delta else none)
    (lost : measurement.loss 1 = .ok loss) (within : loss.within (target budget notion) = .ok true) :
    budget.Covers notion mechanism loss := by
  rcases (compatible_cases compatible).2 with
    ⟨rfl, noDelta⟩ | ⟨rfl, rfl, positive, belowOne⟩
  · rw [not_spendsDelta noDelta] at delta?
    simp only [Measurement.loss, Noise.loss, of_mechanism, delta?, Bool.false_eq_true, if_false,
      Except.ok.injEq] at lost
    subst lost
    refine .laplace noDelta ?_
    cases notion <;>
      simpa [Loss.within, Loss.within?, target] using within
  · have spends : spendsDelta budget .approxDP = true := by simp [spendsDelta, positive]
    rw [spends, if_pos rfl] at delta?
    simp only [Measurement.loss, Noise.loss, of_mechanism, delta?, Except.ok.injEq] at lost
    subst lost
    refine .gaussian rfl positive belowOne ?_
    simp only [Loss.within, Loss.within?, target, Except.ok.injEq, Bool.and_eq_true,
      decide_eq_true_eq] at within
    exact within.1

/-- **`calibrated_covers`**: the budget covers the loss of a calibrated measurement. -/
theorem calibrated_covers (compatible : checkCompatibility budget notion mechanism = .ok ())
    (h : calibrated (.standard calibration) budget notion mechanism pending = .ok measurement) :
    measurement.noise.mechanism = mechanism ∧
      ∃ loss, measurement.loss 1 = .ok loss ∧ budget.Covers notion mechanism loss := by
  obtain ⟨scale, found, made⟩ := bind_eq_ok.1 h
  obtain ⟨same, loss, made', lost, within⟩ := accepts_eq_ok_true (accepts_of_calibrate found)
  obtain rfl : same = measurement := by simpa [made] using made'.symm
  obtain ⟨-, of_mechanism, -, -, delta?⟩ := measurementAt_standard_eq_ok made
  exact ⟨of_mechanism, loss, lost, covers_of_within compatible of_mechanism delta? lost within⟩

/-! ## Pipelines -/

/-- **`pipeline_covers`**: once noise has been added there is a pipeline, its noise is of the
mechanism that the only measure of the query asks for, and the budget covers its loss. -/
theorem pipeline_covers {calibration parameters : Parameters} {budget : Budget} {notion : Notion}
    {schema : Schema} {steps : List Step} {c : Course Assembly}
    (compiled : compile (.standard calibration) parameters budget notion schema steps = .ok c)
    (noised : c.standing.stage = .noiseAdded) :
    ∃ pipeline step measure loss, c.pipeline = .ok pipeline ∧
      measuring steps = [step] ∧ step.measure? = some measure ∧
      pipeline.mechanism = measure.mechanism ∧ pipeline.measurement.loss 1 = .ok loss ∧
      budget.Covers notion measure.mechanism loss := by
  obtain ⟨s, a⟩ := c
  have fits := compile_fits compiled
  dsimp only at fits noised
  generalize measuring steps = taken at fits
  cases fits with
  | @noised schema released ops step measure pending measurement label seed? projects due calibrated =>
    obtain ⟨of_mechanism, loss, lost, covers⟩ := calibrated_covers due.compatible calibrated
    exact ⟨_, step, measure, loss, rfl, rfl, due.taken, of_mechanism, lost, covers⟩
  | _ => simp at noised

/-- A sum under a budget whose calibration runs out of steps, renamed afterwards. -/
theorem pipeline_covers_total :
    ∃ c, compile (.standard ⟨1e-9, 12, 65536, none⟩) .standard ⟨1, some 1e-6⟩ .approxDP
        ⟨[⟨"age", .int 0 100⟩], by decide⟩
        [.sum ⟨"age", .gaussian⟩, .rename (.ofList [("age", "total")])] = .ok c ∧
      c.standing.stage = .noiseAdded ∧
      ∃ pipeline step measure loss, c.pipeline = .ok pipeline ∧
        measuring [.sum ⟨"age", .gaussian⟩, .rename (.ofList [("age", "total")])] = [step] ∧
        step.measure? = some measure ∧ pipeline.mechanism = measure.mechanism ∧
        pipeline.measurement.loss 1 = .ok loss ∧
        Budget.Covers ⟨1, some 1e-6⟩ .approxDP measure.mechanism loss := by
  have stage : (compile (.standard ⟨1e-9, 12, 65536, none⟩) .standard ⟨1, some 1e-6⟩ .approxDP
      ⟨[⟨"age", .int 0 100⟩], by decide⟩
      [.sum ⟨"age", .gaussian⟩, .rename (.ofList [("age", "total")])]).toOption.map
        (·.standing.stage) = some .noiseAdded := by decide +kernel
  obtain ⟨c, compiled, noised⟩ := Option.map_eq_some_iff.1 stage
  rw [toOption_eq_some] at compiled
  exact ⟨c, compiled, noised, pipeline_covers compiled noised⟩

end PrivateQuery
