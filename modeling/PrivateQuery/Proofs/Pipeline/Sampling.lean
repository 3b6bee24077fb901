import PrivateQuery.Proofs.Pipeline.Affordability
import PrivateQuery.Proofs.Pipeline.Evaluation
import PrivateQuery.Proofs.Privacy.Scale

/-!
# Which pipelines can draw their noise

The evaluation of a compiled pipeline ends with an error under no generator, and it crashes under
none unless the noise is discrete Gaussian and its calibrated scale loses its square: because the
noise hides nothing, as for a sum whose bounds are both zero, or because the scale is at least
`2 ^ 512`. These pipelines do crash under some generator, and end with a value under none
(`evaluate_crashes_iff`).
-/
namespace PrivateQuery

open Binary64

/-! ## Noise vectors -/

namespace Noise

variable {n : Noise} {attempts outputs : Nat}

/-- Noise whose integers cannot be drawn. -/
structure Undrawable (n : Noise) : Prop where
  gaussian : n.mechanism = .gaussian
  discrete : n.discrete = true
  losesSquare : LosesSquare n.scale

theorem Undrawable.draw (undrawable : n.Undrawable) :
    n.drawInteger attempts = drawDiscreteGaussian n.scale attempts := by
  rw [drawInteger, undrawable.gaussian]

theorem vector_total (drawable : ¬ n.Undrawable) :
    FailsOnly (n.drawVector attempts outputs) (· = .stalled) := by
  have gaussian (mechanism : n.mechanism = .gaussian) (discrete : n.discrete = true) :
      FailsOnly (drawDiscreteGaussian n.scale attempts) (· = .stalled) := by
    refine discreteGaussian_total (by rfl) n.isScale_scale (fun loses => ?_) attempts
    exact drawable ⟨mechanism, discrete, loses⟩
  exact n.failsOnly_vector (by rfl) gaussian outputs

theorem vector_never (undrawable : n.Undrawable) (some : outputs ≠ 0) :
    AlwaysFails (n.drawVector attempts outputs) := by
  obtain ⟨k, rfl⟩ := Nat.exists_eq_succ_of_ne_zero some
  have draw := discreteGaussian_never n.isScale_scale undrawable.losesSquare attempts
  unfold drawVector
  rw [if_pos undrawable.discrete, undrawable.draw]
  refine .bind fun g entries drawn => ?_
  have many : AlwaysFails (drawMany (drawDiscreteGaussian n.scale attempts) (k + 1)) :=
    .bind fun g x first => absurd first (draw g x)
  exact absurd drawn (many g entries)

theorem vector_crashes (undrawable : n.Undrawable) (some : outputs ≠ 0) :
    ((n.drawVector (attempts + 1) outputs).run Generator.zeros).1 = .error .crashed := by
  obtain ⟨k, rfl⟩ := Nat.exists_eq_succ_of_ne_zero some
  have draw := discreteGaussian_crashes n.isScale_scale undrawable.losesSquare attempts
  unfold drawVector
  rw [if_pos undrawable.discrete, undrawable.draw, drawMany, run_map, run_bind]
  generalize (drawDiscreteGaussian n.scale (attempts + 1)).run Generator.zeros = ended at draw
  obtain ⟨outcome, g⟩ := ended
  cases draw
  rfl

theorem vector_empty (kind : Fault MechanismError → Prop) :
    FailsOnly (n.drawVector attempts 0) kind := by
  unfold drawVector
  split
  · exact FailsOnly.bind (.pure _) fun _ => .pure _
  · exact FailsOnly.bind (.pure _) fun _ => .pure _

end Noise

/-! ## Calibrated pipelines -/

/-- A pipeline that draws discrete Gaussian noise that hides nothing, or whose scale is at least
`2 ^ 512`. -/
structure Pipeline.Undrawable (p : Pipeline) : Prop where
  gaussian : p.mechanism = .gaussian
  discrete : p.discrete = true
  some : p.measurement.transformation.outputs ≠ 0
  extreme : place (p.measurement.transformation.stability 1) = 0 ∨ 2 ^ (512 : ℤ) ≤ place p.scale

/-- The sensitivity of an aggregation to integers is zero or at least one. -/
theorem Due.whole {terms : Terms} {schema : Schema} {step : Step} {measure : Measure}
    {pending : Pending} (due : Due terms schema step measure pending)
    (discrete : pending.discrete = true) :
    place (pending.transformation.stability 1) = 0 ∨
      1 ≤ place (pending.transformation.stability 1) := by
  cases due.awaits with
  | count typed => exact .inr place_one.ge
  | histogram typed binned distinct checked listed => exact .inr place_one.ge
  | @integerSum measure low high typed bounded =>
    have word : max low.toInt.natAbs high.toInt.natAbs ≤ 2 ^ 63 := by
      have := Word.inRange_toInt low
      have := Word.inRange_toInt high
      omega
    have stable : (Transformation.integerSum measure.column low high).stability 1 =
      1 * ofNat (max low.toInt.natAbs high.toInt.natAbs) := rfl
    rw [stable, (place_one_mul (isFinite_ofNat word)).2]
    rcases Nat.eq_zero_or_pos (max low.toInt.natAbs high.toInt.natAbs) with none | pos
    · left
      rw [none, place_ofNat_zero]
    · exact .inr (one_le_place_ofNat pos)
  | floatSum typed bounded => simp at discrete

variable {parameters : Parameters} {budget : Budget} {notion : Notion}
variable {schema : Schema} {steps : List Step} {c : Course Assembly} {pipeline : Pipeline}

theorem undrawable_iff
    (compiled : compile (.standard .standard) parameters budget notion schema steps = .ok c)
    (built : c.pipeline = .ok pipeline) : pipeline.Undrawable ↔
      pipeline.measurement.noise.Undrawable ∧ pipeline.measurement.transformation.outputs ≠ 0 := by
  obtain ⟨working, step, measure, pending, -, due, found⟩ := pipeline_due compiled built
  obtain ⟨-, transformation, mechanism, discrete⟩ := scale_of_calibrated found
  have loses (gaussian : pipeline.mechanism = .gaussian) (whole : pipeline.discrete = true) :
      Noise.LosesSquare pipeline.scale ↔
        place (pipeline.measurement.transformation.stability 1) = 0 ∨
          2 ^ (512 : ℤ) ≤ place pipeline.scale := by
    obtain ⟨moderate, -⟩ := due.moves
    have compatible := due.compatible
    have same : measure.mechanism = .gaussian := mechanism.symm.trans gaussian
    rw [same] at found compatible
    rw [transformation]
    exact losesSquare_iff compatible moderate.finite (due.whole (discrete.symm.trans whole)) found
  constructor
  · rintro ⟨gaussian, whole, some, extreme⟩
    exact ⟨⟨gaussian, whole, (loses gaussian whole).2 extreme⟩, some⟩
  · rintro ⟨⟨gaussian, whole, lost⟩, some⟩
    exact ⟨gaussian, whole, some, (loses gaussian whole).1 lost⟩

/-- **`evaluate_crashes_iff`**: on a payload that is read under the schema of its query no evaluation
ends with an error. One can crash if and only if the pipeline draws discrete Gaussian noise that hides
nothing or whose scale is at least `2 ^ 512`, and then no evaluation ends with a value. This holds for
every number of attempts, but that without an attempt nothing crashes. -/
theorem evaluate_crashes_iff (payload : String) (frame : Frame) (attempts : Nat)
    (compiled : compile (.standard .standard) parameters budget notion schema steps = .ok c)
    (built : c.pipeline = .ok pipeline) (read : Frame.ofCsv payload schema = .ok frame) :
    (∀ g e, (pipeline.evaluate attempts frame g).1 ≠ .error (.raised e)) ∧
      ((∃ g, (pipeline.evaluate (attempts + 1) frame g).1 = .error .crashed) ↔
        pipeline.Undrawable) ∧
      (pipeline.Undrawable →
        ∀ g evaluation, (pipeline.evaluate attempts frame g).1 ≠ .ok evaluation) := by
  rw [undrawable_iff compiled built]
  refine ⟨?_, ⟨?_, ?_⟩, ?_⟩
  · intro g e raised
    obtain ⟨fault, failed, same⟩ := draw_of_evaluate_error compiled built read raised
    rcases pipeline.measurement.noise.vector_faults _ _ g fault failed with rfl | rfl
    · simp [Fault.map] at same
    · simp [Fault.map] at same
  · rintro ⟨g, crashed⟩
    obtain ⟨fault, failed, same⟩ := draw_of_evaluate_error compiled built read crashed
    by_contra drawable
    have total : FailsOnly (pipeline.measurement.noise.drawVector (attempts + 1)
        pipeline.measurement.transformation.outputs) (· = .stalled) := by
      by_cases none : pipeline.measurement.transformation.outputs = 0
      · rw [none]
        exact Noise.vector_empty _
      · exact Noise.vector_total fun undrawable => drawable ⟨undrawable, none⟩
    obtain rfl := total g fault failed
    simp [Fault.map] at same
  · rintro ⟨undrawable, some⟩
    obtain ⟨projected, raw, -, -, ends⟩ := evaluate_ends payload frame compiled built read
    have ended := ends (attempts + 1) .zeros
    rw [Noise.vector_crashes undrawable some] at ended
    exact ⟨.zeros, ended⟩
  · rintro ⟨undrawable, some⟩ g evaluation ended
    obtain ⟨vector, drawn⟩ := draw_of_evaluate_ok compiled built read ended
    exact Noise.vector_never undrawable some g vector drawn

/-- A count with Gaussian noise under a common budget. -/
theorem evaluate_crashes_iff_ages :
    ∃ c pipeline frame,
      compile (.standard .standard) .standard ⟨1, some 1e-5⟩ .approxDP
        ⟨[⟨"age", .int 0 100⟩], by decide⟩ [.count ⟨"age", .gaussian⟩] = .ok c ∧
      c.pipeline = .ok pipeline ∧
      Frame.ofCsv "age\n20\n" ⟨[⟨"age", .int 0 100⟩], by decide⟩ = .ok frame ∧
      ∀ attempts, (∀ g e, (pipeline.evaluate attempts frame g).1 ≠ .error (.raised e)) ∧
        ((∃ g, (pipeline.evaluate (attempts + 1) frame g).1 = .error .crashed) ↔
          pipeline.Undrawable) ∧
        (pipeline.Undrawable →
          ∀ g evaluation, (pipeline.evaluate attempts frame g).1 ≠ .ok evaluation) := by
  have built : ((compile (.standard .standard) .standard ⟨1, some 1e-5⟩ .approxDP
      ⟨[⟨"age", .int 0 100⟩], by decide⟩ [.count ⟨"age", .gaussian⟩]).toOption.bind
        (·.pipeline.toOption)).isSome = true := by
    decide +kernel
  obtain ⟨pipeline, built⟩ := Option.isSome_iff_exists.1 built
  obtain ⟨c, compiled, built⟩ := Option.bind_eq_some_iff.1 built
  rw [toOption_eq_some] at compiled built
  have covers : ∀ name ∈ ["age"], name ∈ Csv.header "age\n20\n" := by decide +kernel
  have even : ∀ line ∈ (Csv.lines "age\n20\n").tail,
      line.length = (Csv.header "age\n20\n").length := by decide +kernel
  obtain ⟨frame, read⟩ : ∃ frame, Frame.ofCsv "age\n20\n" ⟨[⟨"age", .int 0 100⟩], by decide⟩ =
      .ok frame := by
    rw [Frame.ofCsv_ok_iff]
    exact ⟨covers, even⟩
  exact ⟨c, pipeline, frame, compiled, built, read, fun attempts =>
    evaluate_crashes_iff _ _ attempts compiled built read⟩

/-- The sum of a column whose bounds are both zero crashes at its second attempt, although its query
compiles. -/
theorem sum_of_zeros_crashes :
    ∃ c pipeline frame,
      compile (.standard .standard) .standard ⟨1, some 1e-5⟩ .approxDP
        ⟨[⟨"x", .int 0 0⟩], by decide⟩ [.sum ⟨"x", .gaussian⟩] = .ok c ∧
      c.pipeline = .ok pipeline ∧
      Frame.ofCsv "x\n0\n" ⟨[⟨"x", .int 0 0⟩], by decide⟩ = .ok frame ∧
      ∀ attempts, (pipeline.evaluate (attempts + 2) frame (.ofSeed 1)).1 = .error .crashed := by
  have crashed : ((compile (.standard .standard) .standard ⟨1, some 1e-5⟩ .approxDP
      ⟨[⟨"x", .int 0 0⟩], by decide⟩ [.sum ⟨"x", .gaussian⟩]).toOption.bind fun c =>
        c.pipeline.toOption.bind fun pipeline =>
          (Frame.ofCsv "x\n0\n" ⟨[⟨"x", .int 0 0⟩], by decide⟩).toOption.map fun frame =>
            decide ((pipeline.evaluate 2 frame (.ofSeed 1)).1 = .error .crashed)) = some true := by
    decide +kernel
  obtain ⟨c, compiled, crashed⟩ := Option.bind_eq_some_iff.1 crashed
  obtain ⟨pipeline, built, crashed⟩ := Option.bind_eq_some_iff.1 crashed
  obtain ⟨frame, read, crashed⟩ := Option.map_eq_some_iff.1 crashed
  rw [toOption_eq_some] at compiled built read
  refine ⟨c, pipeline, frame, compiled, built, read, fun attempts => ?_⟩
  have crashed := of_decide_eq_true crashed
  rw [Pipeline.evaluate_settled (Nat.le_add_left 2 attempts) (by simp [crashed]), crashed]

end PrivateQuery
