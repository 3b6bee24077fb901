import PrivateQuery.Proofs.Binary64.Special
import PrivateQuery.Proofs.Pipeline.Affordability
import PrivateQuery.Proofs.Pipeline.Measure
import PrivateQuery.Proofs.Privacy.Reach

/-!
# Calibrated scales

The test of the search reads of a measure nothing but how far one row moves it, so two queries with
the same mechanism, under the same budget, whose measures move equally far get the same scale or
fail alike, whatever else tells them apart (`scale_determined`). And on every scale that is tested
for a query that passes its check the test has an answer: the noise is made, the loss is stated for
a `δ` only where there is one, and it can be compared with the target. What is left to fail is the
search itself (`calibration_answers`).
-/
namespace PrivateQuery

open Assembly Binary64

variable {budget : Budget} {notion : Notion} {mechanism : Mechanism} {pending pending' : Pending}
  {calibration : Parameters} {scale : Float}

/-! ## What the test reads -/

theorem ratio_congr {x y : Float} (fx : IsFinite x) (fy : IsFinite y) (same : (x == y) = true)
    (scale : Float) : Noise.ratio x scale = Noise.ratio y scale := by
  have place_eq := (beq_iff.1 same).2.2
  unfold Noise.ratio
  by_cases zero : place x = 0
  · rw [if_pos ((beq_zero_iff fx.isNumber).2 zero),
      if_pos ((beq_zero_iff fy.isNumber).2 (place_eq ▸ zero))]
  · rw [if_neg fun h => zero ((beq_zero_iff fx.isNumber).1 h),
      if_neg fun h => zero (place_eq.trans ((beq_zero_iff fy.isNumber).1 h)),
      div_of_place_eq fx fy place_eq zero]

theorem cost_congr {x y : Float} (fx : IsFinite x) (fy : IsFinite y) (same : (x == y) = true)
    (scale : Float) : budget.cost mechanism x scale = budget.cost mechanism y scale := by
  unfold Budget.cost
  rw [ratio_congr fx fy same]

/-- The test whether the noise at a scale stays within the budget. -/
def withinBudget (calibration : Parameters) (budget : Budget) (notion : Notion)
    (mechanism : Mechanism) (pending : Pending) : Float → Mechanism.Attempt Bool :=
  Library.accepts (measurementAt (.standard calibration) budget notion mechanism pending) 1
    (target budget notion)

theorem withinBudget_of_not_scale (unscaled : isScale scale ≠ true) :
    withinBudget calibration budget notion mechanism pending scale =
      .error (.raised (.scale scale)) := by
  simp [withinBudget, Library.accepts, measurementAt, Library.standard, Noise.ofScale, unscaled,
    Attempt.ofExcept, Attempt.raise, bind, Except.bind]

/-- The test reads of a measure how far one row moves it. -/
theorem withinBudget_congr (compatible : checkCompatibility budget notion mechanism = .ok ())
    (finite : IsFinite (pending.transformation.stability 1))
    (finite' : IsFinite (pending'.transformation.stability 1))
    (same : (pending.transformation.stability 1 == pending'.transformation.stability 1) = true) :
    withinBudget calibration budget notion mechanism pending =
      withinBudget calibration budget notion mechanism pending' := by
  funext scale
  by_cases scaled : isScale scale = true
  · rw [withinBudget, withinBudget, accepts_eq compatible scaled, accepts_eq compatible scaled,
      cost_congr finite finite' same]
  · rw [withinBudget_of_not_scale scaled, withinBudget_of_not_scale scaled]

/-! ## The search of a measure -/

/-- The search for the scale of a measure, with the scales that it tests. -/
def scaleSearch (calibration : Parameters) (budget : Budget) (notion : Notion)
    (mechanism : Mechanism) (pending : Pending) : Mechanism.Attempt Float × List Float :=
  Calibration.trace
    (fun failure => .raised (Library.calibrationError calibration.calibrationSteps failure))
    (fun _ => withinBudget calibration budget notion mechanism pending) calibration.tolerance
    calibration.calibrationSteps

theorem scaleSearch_fst : (scaleSearch calibration budget notion mechanism pending).1 =
    (Library.standard calibration).calibrate
      (measurementAt (.standard calibration) budget notion mechanism pending) 1
      (target budget notion) :=
  Calibration.trace_fst _ _ _ _

/-- A measure is calibrated to the scale that is found, or fails as the search does. -/
theorem calibrated_cases :
    (∃ measurement,
        calibrated (.standard calibration) budget notion mechanism pending = .ok measurement ∧
        (scaleSearch calibration budget notion mechanism pending).1 = .ok measurement.noise.scale) ∨
      ∃ cause, calibrated (.standard calibration) budget notion mechanism pending = .error cause ∧
        (scaleSearch calibration budget notion mechanism pending).1 = .error cause := by
  cases found : (scaleSearch calibration budget notion mechanism pending).1 with
  | ok scale =>
    rw [scaleSearch_fst] at found
    obtain ⟨measurement, -, made, -, -⟩ := accepts_eq_ok_true (accepts_of_calibrate found)
    obtain ⟨-, -, -, rfl, -⟩ := measurementAt_standard_eq_ok made
    exact .inl ⟨measurement, bind_eq_ok.2 ⟨_, found, made⟩, rfl⟩
  | error cause =>
    rw [scaleSearch_fst] at found
    refine .inr ⟨cause, ?_, rfl⟩
    rw [calibrated, found]
    rfl

/-! ## Queries that pass their check -/

section
variable {parameters : Parameters} {schema released : Schema} {steps : List Step}

theorem Owed.compatible {terms : Terms} (owed : Owed terms mechanism pending) :
    checkCompatibility terms.budget terms.notion mechanism = .ok () := by
  obtain ⟨schema, step, measure, due, rfl⟩ := owed
  exact due.compatible

theorem Owed.finite {terms : Terms} (owed : Owed terms mechanism pending) :
    IsFinite (pending.transformation.stability 1) := by
  obtain ⟨schema, step, measure, due, -⟩ := owed
  exact due.moves.1.finite

/-- The pipeline of a query has the scale that is found, and there is none if and only if the search
fails. -/
theorem assemble_scaleSearch (calibration : Parameters)
    (checked : typecheck (.of budget notion parameters) schema steps = .ok released)
    (measured : measured? (.of budget notion parameters) schema steps = some (mechanism, pending)) :
    Owed (.of budget notion parameters) mechanism pending ∧
      ((∃ pipeline,
          assembleWith (.standard calibration) parameters budget notion schema steps = .ok pipeline ∧
          (scaleSearch calibration budget notion mechanism pending).1 = .ok pipeline.scale) ∨
        ∃ e, assembleWith (.standard calibration) parameters budget notion schema steps =
            .error (.raised (.execution (.mechanism e))) ∧
          (scaleSearch calibration budget notion mechanism pending).1 = .error (.raised e)) := by
  obtain ⟨m, q, measures, owed, built⟩ := assemble_measured checked (.standard calibration)
  obtain ⟨rfl, rfl⟩ := Prod.mk.inj (Option.some.inj (measured.symm.trans measures))
  refine ⟨owed, ?_⟩
  rcases built with ⟨pipeline, made, found⟩ | ⟨cause, refused, failed⟩
  · rcases calibrated_cases with ⟨measurement, found', scaled⟩ | ⟨cause, failed, -⟩
    · obtain rfl := Except.ok.inj (found.symm.trans found')
      exact .inl ⟨pipeline, made, scaled⟩
    · exact nomatch found.symm.trans failed
  · have returns := calibrated_returns (Library.standard_returns calibration)
    obtain ⟨e, rfl⟩ := (returns _ _ _ _).raised failed
    rcases calibrated_cases with ⟨measurement, found, -⟩ | ⟨cause', failed', ended⟩
    · exact nomatch found.symm.trans failed
    · obtain rfl := Except.error.inj (failed.symm.trans failed')
      exact .inr ⟨e, refused, ended⟩

end

/-! ## Two queries -/

/-- **`scale_determined`**: two queries that pass their checks under the same budget, with the same
mechanism and measures that one row moves equally far, get the same scale or fail with the same
error. -/
theorem scale_determined {parameters parameters' : Parameters}
    {schema schema' released released' : Schema} {steps steps' : List Step}
    (checked : typecheck (.of budget notion parameters) schema steps = .ok released)
    (checked' : typecheck (.of budget notion parameters') schema' steps' = .ok released')
    (measured : measured? (.of budget notion parameters) schema steps = some (mechanism, pending))
    (measured' : measured? (.of budget notion parameters') schema' steps' =
      some (mechanism, pending'))
    (same : (pending.transformation.stability 1 == pending'.transformation.stability 1) = true) :
    (∃ p p', assembleWith (.standard calibration) parameters budget notion schema steps = .ok p ∧
        assembleWith (.standard calibration) parameters' budget notion schema' steps' = .ok p' ∧
        p.scale = p'.scale) ∨
      ∃ e, assembleWith (.standard calibration) parameters budget notion schema steps =
          .error (.raised e) ∧
        assembleWith (.standard calibration) parameters' budget notion schema' steps' =
          .error (.raised e) := by
  obtain ⟨owed, built⟩ := assemble_scaleSearch calibration checked measured
  obtain ⟨owed', built'⟩ := assemble_scaleSearch calibration checked' measured'
  have compatible : checkCompatibility budget notion mechanism = .ok () := owed.compatible
  have alike : scaleSearch calibration budget notion mechanism pending =
      scaleSearch calibration budget notion mechanism pending' := by
    unfold scaleSearch
    rw [withinBudget_congr compatible owed.finite owed'.finite same]
  rw [alike] at built
  rcases built with ⟨p, made, found⟩ | ⟨e, refused, failed⟩
  · rcases built' with ⟨p', made', found'⟩ | ⟨e, -, failed⟩
    · exact .inl ⟨p, p', made, made', Except.ok.inj (found.symm.trans found')⟩
    · exact nomatch found.symm.trans failed
  · rcases built' with ⟨p', -, found⟩ | ⟨e', refused', failed'⟩
    · exact nomatch found.symm.trans failed
    · obtain rfl := Fault.raised.inj (Except.error.inj (failed.symm.trans failed'))
      exact .inr ⟨_, refused, refused'⟩

/-- A count, and a sum of a column from zero to one of another schema. -/
theorem scale_determined_count_sum :
    ∃ p p', assembleWith (.standard ⟨1e-9, 12, 65536, none⟩) .standard ⟨1, none⟩ .pureDP
          ⟨[⟨"age", .int 0 100⟩], by decide⟩ [.count ⟨"age", .laplace⟩] = .ok p ∧
        assembleWith (.standard ⟨1e-9, 12, 65536, none⟩) .standard ⟨1, none⟩ .pureDP
          ⟨[⟨"name", .text⟩, ⟨"smoker", .int 0 1⟩], by decide⟩ [.sum ⟨"smoker", .laplace⟩] = .ok p' ∧
        p.scale = p'.scale := by
  have counted : (typecheck (.of ⟨1, none⟩ .pureDP .standard) ⟨[⟨"age", .int 0 100⟩], by decide⟩
      [.count ⟨"age", .laplace⟩]).toOption.isSome = true := by
    decide +kernel
  have summed : (typecheck (.of ⟨1, none⟩ .pureDP .standard)
      ⟨[⟨"name", .text⟩, ⟨"smoker", .int 0 1⟩], by decide⟩
      [.sum ⟨"smoker", .laplace⟩]).toOption.isSome = true := by
    decide +kernel
  obtain ⟨released, counted⟩ := Option.isSome_iff_exists.1 counted
  obtain ⟨released', summed⟩ := Option.isSome_iff_exists.1 summed
  rw [toOption_eq_some] at counted summed
  have count : measured? (.of ⟨1, none⟩ .pureDP .standard) ⟨[⟨"age", .int 0 100⟩], by decide⟩
      [.count ⟨"age", .laplace⟩] = some (.laplace, ⟨.count "age", true, "age", none⟩) := by
    decide +kernel
  have sum : measured? (.of ⟨1, none⟩ .pureDP .standard)
      ⟨[⟨"name", .text⟩, ⟨"smoker", .int 0 1⟩], by decide⟩ [.sum ⟨"smoker", .laplace⟩] =
        some (.laplace, ⟨.integerSum "smoker" 0 1, true, "smoker", none⟩) := by
    decide +kernel
  have assembled : (assembleWith (.standard ⟨1e-9, 12, 65536, none⟩) .standard ⟨1, none⟩ .pureDP
      ⟨[⟨"age", .int 0 100⟩], by decide⟩ [.count ⟨"age", .laplace⟩]).toOption.isSome = true := by
    decide +kernel
  rcases scale_determined counted summed count sum (by decide +kernel) with
    both | ⟨e, refused, -⟩
  · exact both
  · rw [refused] at assembled
    exact nomatch assembled

/-! ## No test fails -/

/-- **`calibration_answers`**: for a query that passes its check every test of the search has an
answer. The scale is finite and not negative, the loss is stated for a `δ` only if the noise is
Gaussian and the `δ` lies between zero and one, and the loss can be compared with the target. So the
only error of its compilation is one of the search. -/
theorem calibration_answers {parameters : Parameters} {schema released : Schema} {steps : List Step}
    (positive : 0 < calibration.tolerance)
    (checked : typecheck (.of budget notion parameters) schema steps = .ok released) :
    (∃ mechanism pending,
      measured? (.of budget notion parameters) schema steps = some (mechanism, pending) ∧
      (∀ scale ∈ (scaleSearch calibration budget notion mechanism pending).2,
        isScale scale = true ∧ ∃ measurement loss covered,
          measurementAt (.standard calibration) budget notion mechanism pending scale =
            .ok measurement ∧
          measurement.loss 1 = .ok loss ∧ loss.within (target budget notion) = .ok covered) ∧
      (spendsDelta budget notion = true →
        mechanism = .gaussian ∧ 0 < budget.delta ∧ budget.delta < 1)) ∧
    ∀ fault, assembleWith (.standard calibration) parameters budget notion schema steps =
        .error fault →
      ∃ cause, fault = .raised (.execution (.mechanism cause)) ∧
        cause.kind? = some "Calibration" := by
  obtain ⟨mechanism, pending, measured, owed, -⟩ :=
    assemble_measured checked (.standard calibration)
  have compatible : checkCompatibility budget notion mechanism = .ok () := owed.compatible
  have answers (scale : Float) (scaled : isScale scale = true) :
      ∃ b, withinBudget calibration budget notion mechanism pending scale = .ok b :=
    ⟨_, accepts_eq compatible scaled⟩
  refine ⟨⟨mechanism, pending, measured, fun scale tested => ?_, fun spends => ?_⟩,
    fun fault failed => ?_⟩
  · have scaled := Calibration.tested_isScale _ _ _ _ scale tested
    obtain ⟨b, answer⟩ := answers scale scaled
    obtain ⟨measurement, made, rest⟩ := bind_eq_ok.1 answer
    obtain ⟨loss, lost, compared⟩ := bind_eq_ok.1 rest
    exact ⟨scaled, measurement, loss, b, made, Attempt.ofExcept_eq_ok.1 lost,
      Attempt.ofExcept_eq_ok.1 compared⟩
  · rcases (compatible_cases compatible).2 with ⟨-, none⟩ | ⟨gaussian, -, positive, belowOne⟩
    · rw [not_spendsDelta none] at spends
      exact nomatch spends
    · exact ⟨gaussian, positive, belowOne⟩
  · obtain ⟨-, ⟨p, made, -⟩ | ⟨e, refused, ended⟩⟩ :=
      assemble_scaleSearch calibration checked measured
    · exact nomatch made.symm.trans failed
    · obtain rfl := Except.error.inj (refused.symm.trans failed)
      refine ⟨e, rfl, ?_⟩
      rw [scaleSearch, Calibration.trace_fst] at ended
      rcases Calibration.search_fails answers positive ended with same | same
      · obtain rfl := Fault.raised.inj same
        rfl
      · obtain rfl := Fault.raised.inj same
        rfl

/-- A Gaussian count of a column, whose loss is stated for the `δ` of the budget. -/
theorem calibration_answers_gaussian :
    (∃ mechanism pending,
      measured? (.of ⟨1, some 1e-6⟩ .approxDP .standard) ⟨[⟨"age", .int 0 100⟩], by decide⟩
          [.count ⟨"age", .gaussian⟩] = some (mechanism, pending) ∧
      (∀ scale ∈ (scaleSearch .standard ⟨1, some 1e-6⟩ .approxDP mechanism pending).2,
        isScale scale = true ∧ ∃ measurement loss covered,
          measurementAt (.standard .standard) ⟨1, some 1e-6⟩ .approxDP mechanism pending scale =
            .ok measurement ∧
          measurement.loss 1 = .ok loss ∧
          loss.within (target ⟨1, some 1e-6⟩ .approxDP) = .ok covered) ∧
      (spendsDelta ⟨1, some 1e-6⟩ .approxDP = true → mechanism = .gaussian ∧
        0 < (⟨1, some 1e-6⟩ : Budget).delta ∧ (⟨1, some 1e-6⟩ : Budget).delta < 1)) ∧
    ∀ fault, assembleWith (.standard .standard) .standard ⟨1, some 1e-6⟩ .approxDP
        ⟨[⟨"age", .int 0 100⟩], by decide⟩ [.count ⟨"age", .gaussian⟩] = .error fault →
      ∃ cause, fault = .raised (.execution (.mechanism cause)) ∧
        cause.kind? = some "Calibration" := by
  have passes : (typecheck (.of ⟨1, some 1e-6⟩ .approxDP .standard)
      ⟨[⟨"age", .int 0 100⟩], by decide⟩ [.count ⟨"age", .gaussian⟩]).toOption.isSome = true := by
    decide +kernel
  obtain ⟨released, checked⟩ := Option.isSome_iff_exists.1 passes
  rw [toOption_eq_some] at checked
  exact calibration_answers tolerance_pos checked

end PrivateQuery
