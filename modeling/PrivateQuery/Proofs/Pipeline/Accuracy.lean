import PrivateQuery.Proofs.Aggregate.Contribution
import PrivateQuery.Proofs.Pipeline.Sampling
import PrivateQuery.Proofs.Privacy.Bounds

/-!
# Which pipelines have an accuracy

The bound for discrete Gaussian noise is found at every scale but those whose square is rounded to
zero. Of the calibrated scales these are the ones of noise that hides nothing, and of all queries only
the sum of a column whose bounds are both zero has such noise (`accuracy_ends_iff`).
-/
namespace PrivateQuery

open Binary64 Accuracy

/-! ## Noise that hides nothing -/

/-- An aggregation to integers that no row moves is a sum whose bounds are both zero. -/
theorem Due.unmoved_iff {terms : Terms} {schema : Schema} {step : Step} {measure : Measure}
    {pending : Pending} (due : Due terms schema step measure pending)
    (discrete : pending.discrete = true) :
    place (pending.transformation.stability 1) = 0 ↔
      ∃ column, pending.transformation = .integerSum column 0 0 := by
  cases due.awaits with
  | count typed => simp [Transformation.stability]
  | histogram typed binned distinct checked listed => simp [Transformation.stability]
  | @integerSum measure low high typed bounded =>
    obtain ⟨q, value, exact⟩ := Transformation.value?_stability measure.column low high
    rw [place_of_value? value, exact, place_ofNat_eq_zero_iff,
      Transformation.reach_eq_zero_iff]
    simp
  | floatSum typed bounded => simp at discrete

variable {parameters : Parameters} {budget : Budget} {notion : Notion}
variable {schema : Schema} {steps : List Step} {c : Course Assembly} {pipeline : Pipeline}

/-- The calibrated scale of discrete Gaussian noise underflows exactly if the noise hides nothing. -/
theorem underflows_scale_iff
    (compiled : compile (.standard .standard) parameters budget notion schema steps = .ok c)
    (built : c.pipeline = .ok pipeline) (gaussian : pipeline.mechanism = .gaussian)
    (discrete : pipeline.discrete = true) : Underflows pipeline.scale ↔
      ∃ column, pipeline.measurement.transformation = .integerSum column 0 0 := by
  obtain ⟨working, step, measure, pending, -, due, found⟩ := pipeline_due compiled built
  obtain ⟨-, transformation, mechanism, whole⟩ := scale_of_calibrated found
  have same : measure.mechanism = .gaussian := mechanism.symm.trans gaussian
  have integral : pending.discrete = true := whole.symm.trans discrete
  have compatible := due.compatible
  obtain ⟨moderate, -⟩ := due.moves
  rw [same] at found compatible
  have scaled := pipeline.measurement.noise.isScale_scale
  obtain ⟨finite, -⟩ := isScale_iff.1 scaled
  rw [transformation, ← due.unmoved_iff integral]
  refine (underflows_iff scaled).trans ⟨?_, fun zero => ?_⟩
  · rintro ⟨pos, none⟩
    have loses := (losesSquare_iff compatible moderate.finite (due.whole integral) found).1
      ⟨pos.ne', .inl none⟩
    -- A scale whose square is zero is nowhere near the other end.
    refine loses.resolve_right fun large => ?_
    have small := large.trans_lt (lt_of_square_zero scaled none)
    exact absurd ((zpow_lt_zpow_iff_right₀ (by norm_num)).1 small) (by norm_num)
  · have power := scale_of_zero compatible moderate.finite zero found
    exact ⟨power ▸ two_zpow_pos _, square_of_least finite power⟩

/-- **`accuracy_ends_iff`**: the computation of the bound for discrete Gaussian noise ends at exactly
the scales that do not underflow, with the bound that is given. The scale of a compiled pipeline is
one of them unless it sums a column whose bounds are both zero. -/
theorem accuracy_ends_iff (alpha : Float) :
    (∀ scale, isScale scale = true →
      ((∃ bound, Ends scale alpha bound) ↔ ¬ Underflows scale) ∧
        ∀ bound, Ends scale alpha bound ↔ discreteGaussian scale alpha = some bound) ∧
    ∀ parameters budget notion schema steps c pipeline,
      compile (.standard .standard) parameters budget notion schema steps = .ok c →
      c.pipeline = .ok pipeline → pipeline.mechanism = .gaussian → pipeline.discrete = true →
      ((∃ bound, Ends pipeline.scale alpha bound) ↔
        ∀ column, pipeline.measurement.transformation ≠ .integerSum column 0 0) := by
  refine ⟨fun scale scaled => ⟨exists_ends_iff scaled, fun bound => ends_iff scaled⟩, ?_⟩
  intro parameters budget notion schema steps c pipeline compiled built gaussian discrete
  have scaled : isScale pipeline.scale = true := pipeline.measurement.noise.isScale_scale
  rw [exists_ends_iff scaled, underflows_scale_iff compiled built gaussian discrete, not_exists]

/-- At the scale 5, and at that of a count of ages under a common budget. -/
theorem accuracy_ends_iff_ages :
    isScale 5 = true ∧ (∃ bound, Ends 5 0.1 bound) ∧
      ∃ c pipeline, compile (.standard .standard) .standard ⟨1, some 1e-5⟩ .approxDP
          ⟨[⟨"age", .int 0 100⟩], by decide⟩ [.count ⟨"age", .gaussian⟩] = .ok c ∧
        c.pipeline = .ok pipeline ∧ pipeline.mechanism = .gaussian ∧ pipeline.discrete = true ∧
        ∃ bound, Ends pipeline.scale 0.1 bound := by
  have scaled : isScale 5 = true := by decide +kernel
  have counted : ((compile (.standard .standard) .standard ⟨1, some 1e-5⟩ .approxDP
      ⟨[⟨"age", .int 0 100⟩], by decide⟩ [.count ⟨"age", .gaussian⟩]).toOption.bind fun c =>
        c.pipeline.toOption.map fun pipeline => decide (pipeline.mechanism = .gaussian ∧
          pipeline.discrete = true ∧ pipeline.measurement.transformation = .count "age")) =
      some true := by
    decide +kernel
  obtain ⟨c, compiled, counted⟩ := Option.bind_eq_some_iff.1 counted
  obtain ⟨pipeline, built, counted⟩ := Option.map_eq_some_iff.1 counted
  rw [toOption_eq_some] at compiled built
  obtain ⟨gaussian, discrete, transformation⟩ := of_decide_eq_true counted
  obtain ⟨scales, pipelines⟩ := accuracy_ends_iff 0.1
  refine ⟨scaled, (scales 5 scaled).1.2 (by decide +kernel), c, pipeline, compiled, built, gaussian,
    discrete, ?_⟩
  refine (pipelines _ _ _ _ _ c pipeline compiled built gaussian discrete).2 fun column => ?_
  simp [transformation]

/-- There is no bound at the scale `1e-200`. -/
theorem tiny_scale_without_end :
    isScale 1e-200 = true ∧ (0 : Float) < 0.05 ∧ (0.05 : Float) < 1 ∧
      ¬ ∃ bound, Ends 1e-200 0.05 bound := by
  have scaled : isScale 1e-200 = true := by decide +kernel
  refine ⟨scaled, by decide +kernel, by decide +kernel, ?_⟩
  rw [exists_ends_iff scaled, not_not]
  decide +kernel

end PrivateQuery
