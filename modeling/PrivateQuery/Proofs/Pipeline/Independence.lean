import PrivateQuery.Proofs.Aggregate.Sensitivity
import PrivateQuery.Proofs.Noise.Vector
import PrivateQuery.Proofs.Privacy.Budget

/-!
# Noise does not depend on the data

A compiled pipeline draws its noise without a look at the frame (`invoke_noised`): from one generator
it takes the same words for all frames, and its outputs are the raw ones with the entries of one noise
vector added, unless the draw itself fails.
-/
namespace PrivateQuery

/-- The number of outputs of an aggregation. -/
def Transformation.outputs : Transformation → Nat
  | countBy _ categories => categories.length
  | _ => 1

/-- The kind and the number of the outputs do not depend on the frame. -/
theorem Transformation.apply_shape {t : Transformation} {frame : Frame} {raw : Aggregate}
    (applied : t.apply frame = .ok raw) :
    raw.isIntegral = t.isIntegral ∧ raw.outputs = t.outputs := by
  obtain ⟨values, -, rfl⟩ := map_eq_ok.1 applied
  cases t with
  | countBy column categories =>
    simp [applyTo, Aggregate.isIntegral, isIntegral, Aggregate.outputs, outputs, length_countAll]
  | _ => exact ⟨rfl, rfl⟩

theorem Awaits.discrete {terms : Terms} {schema : Schema} {step : Step} {pending : Pending}
    (awaits : Awaits terms schema step pending) :
    pending.discrete = pending.transformation.isIntegral := by
  cases awaits <;> rfl

variable {calibration parameters : Parameters} {budget : Budget} {notion : Notion}
variable {schema : Schema} {steps : List Step} {c : Course Assembly} {pipeline : Pipeline}

/-- The noise of a compiled pipeline is of the kind of its outputs. -/
theorem pipeline_discrete
    (compiled : compile (.standard calibration) parameters budget notion schema steps = .ok c)
    (built : c.pipeline = .ok pipeline) :
    pipeline.measurement.noise.discrete = pipeline.measurement.transformation.isIntegral := by
  obtain ⟨working, step, measure, pending, -, due, found⟩ := pipeline_due compiled built
  obtain ⟨scale, -, made⟩ := bind_eq_ok.1 found
  obtain ⟨same, -, discrete, -⟩ := measurementAt_standard_eq_ok made
  rw [same, discrete, due.awaits.discrete]

/-- A measurement whose noise is of the kind of its outputs takes the words of its noise vector, and
ends with the entries added. -/
theorem Measurement.invoke_ends {m : Measurement} {frame : Frame} {raw : Aggregate} {g : Generator}
    {attempts words : Nat} (fits : m.noise.discrete = m.transformation.isIntegral)
    (applied : m.transformation.apply frame = .ok raw)
    (takes : Takes (m.noise.drawVector attempts m.transformation.outputs) g words) :
    Takes (m.invoke attempts frame) g words ∧
      raw.EndsWith ((m.noise.drawVector attempts m.transformation.outputs).run g).1
        ((m.invoke attempts frame).run g).1 := by
  obtain ⟨kind, outputs⟩ := Transformation.apply_shape applied
  have invoked : m.invoke attempts frame = m.noise.perturb attempts raw := by
    unfold Measurement.invoke
    rw [applied]
  rw [invoked, ← outputs]
  rw [← outputs] at takes
  obtain ⟨after, ends⟩ := perturb_ends (kind.trans fits.symm) attempts g
  obtain ⟨words', takes'⟩ := m.noise.draws_perturb attempts raw g
  -- Both end at one generator, so they take the same number of words.
  rw [takes'.run, takes.run] at after
  have same : g.drawn + words' = g.drawn + words := congrArg Generator.drawn after
  rw [Nat.add_left_cancel same] at takes'
  exact ⟨takes', ends⟩

/-- **`invoke_noised`**: on any two frames the measurement of a pipeline takes the same words, and ends
with the entries of one noise vector added to the raw outputs, or with one fault, whatever the number
of attempts that its samplers are given. -/
theorem invoke_noised (left left' : Frame) (raw raw' : Aggregate) (attempts : Nat) (g : Generator)
    (compiled : compile (.standard calibration) parameters budget notion schema steps = .ok c)
    (built : c.pipeline = .ok pipeline)
    (applied : pipeline.measurement.transformation.apply left = .ok raw)
    (applied' : pipeline.measurement.transformation.apply left' = .ok raw') :
    ∃ drawn ended ended' words,
      (pipeline.measurement.noise.drawVector attempts
        pipeline.measurement.transformation.outputs).run g = (drawn, g.skip words) ∧
      Takes (pipeline.measurement.invoke attempts left) g words ∧
      Takes (pipeline.measurement.invoke attempts left') g words ∧
      (pipeline.measurement.invoke attempts left).run g = (ended, g.skip words) ∧
      (pipeline.measurement.invoke attempts left').run g = (ended', g.skip words) ∧
      raw.EndsWith drawn ended ∧ raw'.EndsWith drawn ended' := by
  have fits := pipeline_discrete compiled built
  obtain ⟨words, takes⟩ :=
    pipeline.measurement.noise.draws_vector attempts pipeline.measurement.transformation.outputs g
  obtain ⟨first, ends⟩ := Measurement.invoke_ends fits applied takes
  obtain ⟨second, ends'⟩ := Measurement.invoke_ends fits applied' takes
  exact ⟨_, _, _, words, takes.run, first, second, first.run, second.run, ends, ends'⟩

/-- Sums of other ages, one of them of a missing one, have the same Gaussian noise. -/
theorem invoke_noised_ages :
    ∃ c pipeline raw raw',
      compile (.standard ⟨1e-9, 12, 65536, none⟩) .standard ⟨1, some 1e-6⟩ .approxDP
        ⟨[⟨"age", .int 0 100⟩], by decide⟩ [.sum ⟨"age", .gaussian⟩] = .ok c ∧
      c.pipeline = .ok pipeline ∧
      pipeline.measurement.transformation.apply
        ⟨["age"], [[.integer 20], [.integer 90]], by simp⟩ = .ok raw ∧
      pipeline.measurement.transformation.apply ⟨["age"], [[.null]], by simp⟩ = .ok raw' ∧
      ∀ attempts, ∃ drawn ended ended' words,
        (pipeline.measurement.noise.drawVector attempts
            pipeline.measurement.transformation.outputs).run (.ofSeed 1) =
          (drawn, (Generator.ofSeed 1).skip words) ∧
        Takes (pipeline.measurement.invoke attempts
          ⟨["age"], [[.integer 20], [.integer 90]], by simp⟩) (.ofSeed 1) words ∧
        Takes (pipeline.measurement.invoke attempts ⟨["age"], [[.null]], by simp⟩)
          (.ofSeed 1) words ∧
        (pipeline.measurement.invoke attempts
          ⟨["age"], [[.integer 20], [.integer 90]], by simp⟩).run (.ofSeed 1) =
            (ended, (Generator.ofSeed 1).skip words) ∧
        (pipeline.measurement.invoke attempts ⟨["age"], [[.null]], by simp⟩).run (.ofSeed 1) =
          (ended', (Generator.ofSeed 1).skip words) ∧
        raw.EndsWith drawn ended ∧ raw'.EndsWith drawn ended' := by
  have summed : ((compile (.standard ⟨1e-9, 12, 65536, none⟩) .standard ⟨1, some 1e-6⟩ .approxDP
      ⟨[⟨"age", .int 0 100⟩], by decide⟩ [.sum ⟨"age", .gaussian⟩]).toOption.bind
        (·.pipeline.toOption)).any
          (·.measurement.transformation = .integerSum "age" 0 100) = true := by decide +kernel
  obtain ⟨pipeline, built, same⟩ := (Option.any_eq_true _ _).1 summed
  obtain ⟨c, compiled, built⟩ := Option.bind_eq_some_iff.1 built
  rw [toOption_eq_some] at compiled built
  have applied : pipeline.measurement.transformation.apply
      ⟨["age"], [[.integer 20], [.integer 90]], by simp⟩ = .ok (.integer 110) := by
    rw [of_decide_eq_true same, ← toOption_eq_some]
    decide +kernel
  have applied' : pipeline.measurement.transformation.apply ⟨["age"], [[.null]], by simp⟩ =
      .ok (.integer 0) := by
    rw [of_decide_eq_true same, ← toOption_eq_some]
    decide +kernel
  exact ⟨c, pipeline, _, _, compiled, built, applied, applied', fun attempts =>
    invoke_noised _ _ _ _ attempts (.ofSeed 1) compiled built applied applied'⟩

end PrivateQuery
