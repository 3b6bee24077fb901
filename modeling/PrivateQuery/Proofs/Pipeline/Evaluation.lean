import PrivateQuery.Pipeline.Release
import PrivateQuery.Proofs.Frame.Csv
import PrivateQuery.Proofs.Noise.Attempts
import PrivateQuery.Proofs.Noise.Faults
import PrivateQuery.Proofs.Pipeline.Histograms
import PrivateQuery.Proofs.Pipeline.Independence
import PrivateQuery.Proofs.Pipeline.Sensitivity

/-!
# Evaluations

A compiled pipeline is evaluated without an error on every frame that was read under the schema of its
query (`evaluate_draws`): the operations find their columns, the aggregate is of the kind that the
noise and the categories are for, and only drawing the noise may crash or not come to an end. More
attempts at drawing change nothing once it comes to an end (`evaluate_settled`).
-/
namespace PrivateQuery

def Release.isHistogram : Release → Bool
  | histogram _ => true
  | _ => false

namespace Pipeline

variable {p : Pipeline} {frame projected : Frame} {attempts : Nat} {g : Generator}

/-- On a frame that is projected a run makes a release of what the measurement gives. -/
theorem release_eq (done : p.project frame = .ok projected) (attempts : Nat) (g : Generator) :
    (p.release attempts frame g).1 = (do
      let aggregate ← Attempt.mapError (fun e => .execution (.mechanism e))
        ((p.measurement.invoke attempts projected).run g).1
      Attempt.ofExcept ((p.toRelease aggregate).mapError .execution)) := by
  rw [release, done]
  rfl

theorem evaluate_released {aggregate : Aggregate} {release : Release}
    (done : p.project frame = .ok projected)
    (ended : ((p.measurement.invoke attempts projected).run g).1 = .ok aggregate)
    (released : p.toRelease aggregate = .ok release) :
    (p.evaluate attempts frame g).1 = .ok (.ofList [(p.label, release)]) := by
  have ran : (p.release attempts frame g).1 = .ok release := by
    rw [release_eq done, ended, Attempt.mapError, bind_eq_ok]
    exact ⟨aggregate, rfl, by rw [released]; rfl⟩
  rw [evaluate_eq, ran]
  rfl

theorem evaluate_failed {fault : Fault MechanismError} (done : p.project frame = .ok projected)
    (failed : ((p.measurement.invoke attempts projected).run g).1 = .error fault) :
    (p.evaluate attempts frame g).1 = .error (fault.map fun e => .execution (.mechanism e)) := by
  rw [evaluate_eq, release_eq done, failed]
  rfl

/-- **`evaluate_settled`**: an evaluation that does not stall is the same with more attempts. -/
theorem evaluate_settled {few many : Nat} (le : few ≤ many)
    (ends : (p.evaluate few frame g).1 ≠ .error .stalled) :
    p.evaluate many frame g = p.evaluate few frame g := by
  have same : p.release many frame g = p.release few frame g := by
    unfold release Measurement.invoke
    cases done : p.project frame with
    | error e => rfl
    | ok projected =>
      dsimp only
      cases applied : p.measurement.transformation.apply projected with
      | error e => rfl
      | ok raw =>
        rcases p.measurement.noise.approximates_perturb le raw g with stalls | same
        · have failed : ((p.measurement.invoke few projected).run g).1 = .error .stalled := by
            rw [Measurement.invoke, applied, stalls]
          exact absurd (evaluate_failed done failed) ends
        · dsimp only
          rw [same]
  rw [evaluate_eq, same, evaluate_eq]

/-- A noised aggregate of a pipeline that has the categories that it counts by makes a release. -/
theorem toRelease_of_noised {values : List Value} {vector : NoiseVector}
    {result : Aggregate} (paired : p.categories? = p.measurement.transformation.categories?)
    (noised : (p.measurement.transformation.applyTo values).Noised vector result) :
    ∃ release, p.toRelease result = .ok release ∧ release.isHistogram = p.categories?.isSome := by
  unfold toRelease
  rw [paired]
  cases transformation : p.measurement.transformation with
  | count column =>
    rw [transformation] at noised
    cases noised
    exact ⟨_, rfl, rfl⟩
  | countBy column categories =>
    rw [transformation] at noised
    cases noised with
    | @counts _ entries each =>
      have fits : (List.zipWith Word.addClamped
          ((Transformation.countAll categories values).map Transformation.tally) entries).length =
          categories.length := by
        simp [each, Transformation.length_countAll]
      exact ⟨_, if_neg (not_not.2 fits), rfl⟩
  | integerSum column low high =>
    rw [transformation] at noised
    cases noised
    exact ⟨_, rfl, rfl⟩
  | floatSum column low high =>
    rw [transformation] at noised
    cases noised
    exact ⟨_, rfl, rfl⟩

end Pipeline

variable {calibration parameters : Parameters} {budget : Budget} {notion : Notion}
variable {schema : Schema} {steps : List Step} {c : Course Assembly} {pipeline : Pipeline}

/-- A frame that covers the schema is projected, and what is left is aggregated. -/
theorem pipeline_applies {frame : Frame}
    (compiled : compile (.standard calibration) parameters budget notion schema steps = .ok c)
    (built : c.pipeline = .ok pipeline) (covers : ∀ name ∈ schema.names, name ∈ frame.header) :
    ∃ projected values, pipeline.project frame = .ok projected ∧
      pipeline.measurement.transformation.apply projected =
        .ok (pipeline.measurement.transformation.applyTo values) := by
  obtain ⟨working, projects, measured⟩ := pipeline_projects compiled built
  obtain ⟨header', covers', rowwise⟩ := rowwise_projects projects covers
  obtain ⟨value, columns⟩ := rowwise.column (covers' _ measured)
  obtain ⟨projected, done, column⟩ := columns frame rfl
  refine ⟨projected, frame.rows.filterMap value, done, ?_⟩
  simp [Transformation.apply, column, Except.map]

/-- On a payload that is read under the schema of its query a pipeline ends as drawing its noise ends:
with a release, a histogram if it has categories, or with the fault of the draw. -/
theorem evaluate_ends (payload : String) (frame : Frame)
    (compiled : compile (.standard calibration) parameters budget notion schema steps = .ok c)
    (built : c.pipeline = .ok pipeline) (read : Frame.ofCsv payload schema = .ok frame) :
    ∃ projected raw, pipeline.project frame = .ok projected ∧
      pipeline.measurement.transformation.apply projected = .ok raw ∧
      ∀ attempts g, match ((pipeline.measurement.noise.drawVector attempts
          pipeline.measurement.transformation.outputs).run g).1 with
        | .ok _ => ∃ evaluation release, (pipeline.evaluate attempts frame g).1 = .ok evaluation ∧
          evaluation.entries = [(pipeline.label, release)] ∧
          release.isHistogram = pipeline.categories?.isSome
        | .error fault => (pipeline.evaluate attempts frame g).1 =
          .error (fault.map fun e => .execution (.mechanism e)) := by
  obtain ⟨projected, values, done, applied⟩ :=
    pipeline_applies compiled built (Frame.covers_of_ofCsv read).2
  obtain ⟨paired, -⟩ := pipeline_histogram_iff compiled built
  refine ⟨projected, _, done, applied, fun attempts g => ?_⟩
  obtain ⟨words, takes⟩ := pipeline.measurement.noise.draws_vector attempts
    pipeline.measurement.transformation.outputs g
  obtain ⟨-, ends⟩ := Measurement.invoke_ends (pipeline_discrete compiled built) applied takes
  generalize ((pipeline.measurement.noise.drawVector attempts
    pipeline.measurement.transformation.outputs).run g).1 = drawn at ends
  cases drawn with
  | ok vector =>
    obtain ⟨result, ended, noised⟩ := ends
    obtain ⟨release, released, histogram⟩ := Pipeline.toRelease_of_noised paired noised
    exact ⟨_, release, Pipeline.evaluate_released done ended released, rfl, histogram⟩
  | error fault => exact Pipeline.evaluate_failed done ends

/-- An evaluation that fails does so with the fault of the draw. -/
theorem draw_of_evaluate_error {payload : String} {frame : Frame} {attempts : Nat} {g : Generator}
    {cause : Fault QueryError}
    (compiled : compile (.standard calibration) parameters budget notion schema steps = .ok c)
    (built : c.pipeline = .ok pipeline) (read : Frame.ofCsv payload schema = .ok frame)
    (failed : (pipeline.evaluate attempts frame g).1 = .error cause) :
    ∃ fault, ((pipeline.measurement.noise.drawVector attempts
        pipeline.measurement.transformation.outputs).run g).1 = .error fault ∧
      cause = fault.map fun e => .execution (.mechanism e) := by
  obtain ⟨projected, raw, -, -, ends⟩ := evaluate_ends payload frame compiled built read
  have ended := ends attempts g
  rw [failed] at ended
  generalize ((pipeline.measurement.noise.drawVector attempts
    pipeline.measurement.transformation.outputs).run g).1 = drawn at ended
  cases drawn with
  | ok vector => simp at ended
  | error fault => exact ⟨fault, rfl, Except.error.inj ended⟩

/-- An evaluation that ends with a value has drawn its noise. -/
theorem draw_of_evaluate_ok {payload : String} {frame : Frame} {attempts : Nat} {g : Generator}
    {evaluation : Evaluation}
    (compiled : compile (.standard calibration) parameters budget notion schema steps = .ok c)
    (built : c.pipeline = .ok pipeline) (read : Frame.ofCsv payload schema = .ok frame)
    (ended : (pipeline.evaluate attempts frame g).1 = .ok evaluation) :
    ∃ vector, ((pipeline.measurement.noise.drawVector attempts
      pipeline.measurement.transformation.outputs).run g).1 = .ok vector := by
  obtain ⟨projected, raw, -, -, ends⟩ := evaluate_ends payload frame compiled built read
  have released := ends attempts g
  rw [ended] at released
  generalize ((pipeline.measurement.noise.drawVector attempts
    pipeline.measurement.transformation.outputs).run g).1 = drawn at released
  cases drawn with
  | ok vector => exact ⟨vector, rfl⟩
  | error fault => simp at released

/-- **`evaluate_draws`**: on every payload that is read under the schema of a query, its pipeline
projects the frame and aggregates what is left, and the evaluation has one entry, a release under the
label of the pipeline that is a histogram exactly when the query has a bin, unless drawing the noise
crashes or does not come to an end in the attempts it is given, however many. -/
theorem evaluate_draws (payload : String) (frame : Frame)
    (compiled : compile (.standard calibration) parameters budget notion schema steps = .ok c)
    (built : c.pipeline = .ok pipeline) (read : Frame.ofCsv payload schema = .ok frame) :
    ∃ projected raw, pipeline.project frame = .ok projected ∧
      pipeline.measurement.transformation.apply projected = .ok raw ∧
      ∀ attempts g, match ((pipeline.measurement.noise.drawVector attempts
          pipeline.measurement.transformation.outputs).run g).1 with
        | .ok _ => ∃ evaluation release, (pipeline.evaluate attempts frame g).1 = .ok evaluation ∧
          evaluation.entries = [(pipeline.label, release)] ∧
          (release.isHistogram = true ↔ ∃ b, Step.bin b ∈ steps)
        | .error fault =>
          (fault = .crashed ∧ (pipeline.evaluate attempts frame g).1 = .error .crashed) ∨
            (fault = .stalled ∧ (pipeline.evaluate attempts frame g).1 = .error .stalled) := by
  obtain ⟨projected, raw, done, applied, ends⟩ := evaluate_ends payload frame compiled built read
  obtain ⟨-, binned⟩ := pipeline_histogram_iff compiled built
  refine ⟨projected, raw, done, applied, fun attempts g => ?_⟩
  have quiet := pipeline.measurement.noise.vector_faults attempts
    pipeline.measurement.transformation.outputs g
  have ended := ends attempts g
  generalize ((pipeline.measurement.noise.drawVector attempts
    pipeline.measurement.transformation.outputs).run g).1 = drawn at ended quiet
  cases drawn with
  | ok vector =>
    obtain ⟨evaluation, release, released, single, histogram⟩ := ended
    refine ⟨evaluation, release, released, single, ?_⟩
    rw [histogram, binned, List.any_eq_true]
    constructor
    · rintro ⟨step, mem, bin⟩
      cases step with
      | bin b => exact ⟨b, mem⟩
      | _ => simp [Step.isBin] at bin
    · rintro ⟨b, mem⟩
      exact ⟨.bin b, mem, rfl⟩
  | error fault =>
    rcases quiet fault rfl with rfl | rfl
    · exact .inl ⟨rfl, ended⟩
    · exact .inr ⟨rfl, ended⟩

/-- A count of the adults of a payload that has a foreign column and the ages twice. -/
theorem evaluate_draws_adults :
    ∃ c pipeline frame,
      compile (.standard ⟨1e-9, 12, 65536, none⟩) .standard ⟨1, none⟩ .pureDP
        ⟨[⟨"age", .int 0 100⟩], by decide⟩
        [.filter ["age > 18"], .rename (.ofList [("age", "years")]),
          .count ⟨"years", .laplace⟩] = .ok c ∧
      c.pipeline = .ok pipeline ∧
      Frame.ofCsv "note,age,age\nx,20,30\n" ⟨[⟨"age", .int 0 100⟩], by decide⟩ = .ok frame ∧
      ∃ projected raw, pipeline.project frame = .ok projected ∧
        pipeline.measurement.transformation.apply projected = .ok raw ∧
        ∀ attempts g, match ((pipeline.measurement.noise.drawVector attempts
            pipeline.measurement.transformation.outputs).run g).1 with
          | .ok _ => ∃ evaluation release,
            (pipeline.evaluate attempts frame g).1 = .ok evaluation ∧
            evaluation.entries = [(pipeline.label, release)] ∧
            (release.isHistogram = true ↔ ∃ b, Step.bin b ∈ [Step.filter ["age > 18"],
              .rename (.ofList [("age", "years")]), .count ⟨"years", .laplace⟩])
          | .error fault =>
            (fault = .crashed ∧ (pipeline.evaluate attempts frame g).1 = .error .crashed) ∨
              (fault = .stalled ∧ (pipeline.evaluate attempts frame g).1 = .error .stalled) := by
  have built : ((compile (.standard ⟨1e-9, 12, 65536, none⟩) .standard ⟨1, none⟩ .pureDP
      ⟨[⟨"age", .int 0 100⟩], by decide⟩
      [.filter ["age > 18"], .rename (.ofList [("age", "years")]),
        .count ⟨"years", .laplace⟩]).toOption.bind (·.pipeline.toOption)).isSome = true := by
    decide +kernel
  obtain ⟨pipeline, built⟩ := Option.isSome_iff_exists.1 built
  obtain ⟨c, compiled, built⟩ := Option.bind_eq_some_iff.1 built
  rw [toOption_eq_some] at compiled built
  have covers : ∀ name ∈ ["age"], name ∈ Csv.header "note,age,age\nx,20,30\n" := by decide +kernel
  have even : ∀ line ∈ (Csv.lines "note,age,age\nx,20,30\n").tail,
      line.length = (Csv.header "note,age,age\nx,20,30\n").length := by decide +kernel
  obtain ⟨frame, read⟩ : ∃ frame, Frame.ofCsv "note,age,age\nx,20,30\n"
      ⟨[⟨"age", .int 0 100⟩], by decide⟩ = .ok frame := by
    rw [Frame.ofCsv_ok_iff]
    exact ⟨covers, even⟩
  exact ⟨c, pipeline, frame, compiled, built, read, evaluate_draws _ _ compiled built read⟩

end PrivateQuery
