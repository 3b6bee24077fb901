import PrivateQuery.Proofs.Frame.Reading
import PrivateQuery.Proofs.Pipeline.Evaluation

/-!
# What influences a release

A release depends on the columns of the schema, and on those whose names the query introduces before
its first selection, and on no others (`evaluate_eq_of_agreeOn`). The second part is a defect: a
column outside of the schema is read in place of the renamed one when it has the new name already and
stands before it (`evaluate_reads_foreign`).
-/
namespace PrivateQuery

/-- Frames from which a projection leaves the same values of the measured column are evaluated to the
same release. -/
theorem evaluate_congr {pipeline : Pipeline} {frame frame' left left' : Frame}
    (done : pipeline.project frame = .ok left) (done' : pipeline.project frame' = .ok left')
    (same : left'.column pipeline.measurement.transformation.column =
      left.column pipeline.measurement.transformation.column) (attempts : Nat) (g : Generator) :
    pipeline.evaluate attempts frame g = pipeline.evaluate attempts frame' g := by
  have applied : pipeline.measurement.transformation.apply left' =
      pipeline.measurement.transformation.apply left := by
    rw [Transformation.apply, same, Transformation.apply]
  have invoked : pipeline.measurement.invoke attempts left' =
      pipeline.measurement.invoke attempts left := by
    rw [Measurement.invoke, applied, Measurement.invoke]
  simp only [Pipeline.evaluate, Pipeline.release, done, done', invoked]

variable {calibration parameters : Parameters} {budget : Budget} {notion : Notion}
variable {schema : Schema} {steps : List Step} {c : Course Assembly} {pipeline : Pipeline}

/-- **`evaluate_eq_of_agreeOn`**: two frames are evaluated to the same release if they agree in the
columns of the schema and in those whose names are introduced before the first selection. -/
theorem evaluate_eq_of_agreeOn (frame frame' : Frame) (attempts : Nat) (g : Generator)
    (compiled : compile (.standard calibration) parameters budget notion schema steps = .ok c)
    (built : c.pipeline = .ok pipeline) (covers : ∀ name ∈ schema.names, name ∈ frame.header)
    (agree : frame.AgreeOn (schema.names ++ introduced pipeline.projection) frame') :
    pipeline.evaluate attempts frame g = pipeline.evaluate attempts frame' g := by
  obtain ⟨working, projects, measured⟩ := pipeline_projects compiled built
  obtain ⟨left, left', done, done', alike⟩ := alike_of_projects projects covers agree
    (fun name mem => List.mem_append_left _ mem) fun name mem => List.mem_append_right _ mem
  exact evaluate_congr done done' (alike.column measured) attempts g

/-- Notes outside of the schema do not influence a count of ages under another name. -/
theorem evaluate_eq_of_notes :
    ∃ c pipeline,
      compile (.standard ⟨1e-9, 12, 65536, none⟩) .standard ⟨1, none⟩ .pureDP
        ⟨[⟨"age", .int 0 100⟩], by decide⟩
        [.filter ["age > 18"], .rename (.ofList [("age", "years")]),
          .count ⟨"years", .laplace⟩] = .ok c ∧
      c.pipeline = .ok pipeline ∧
      (∀ name ∈ ["age"], name ∈ ["note", "age"]) ∧
      Frame.AgreeOn (["age"] ++ introduced pipeline.projection)
        ⟨["note", "age"], [[.text "p", .integer 20], [.text "q", .integer 9]], by simp⟩
        ⟨["note", "age"], [[.null, .integer 20], [.text "r", .integer 9]], by simp⟩ ∧
      ∀ attempts, pipeline.evaluate attempts
          ⟨["note", "age"], [[.text "p", .integer 20], [.text "q", .integer 9]], by simp⟩
          (.ofSeed 1) =
        pipeline.evaluate attempts
          ⟨["note", "age"], [[.null, .integer 20], [.text "r", .integer 9]], by simp⟩
          (.ofSeed 1) := by
  have built : ((compile (.standard ⟨1e-9, 12, 65536, none⟩) .standard ⟨1, none⟩ .pureDP
      ⟨[⟨"age", .int 0 100⟩], by decide⟩
      [.filter ["age > 18"], .rename (.ofList [("age", "years")]),
        .count ⟨"years", .laplace⟩]).toOption.bind (·.pipeline.toOption)).any
          (introduced ·.projection == ["years"]) = true := by decide +kernel
  obtain ⟨pipeline, built, names⟩ := (Option.any_eq_true _ _).1 built
  obtain ⟨c, compiled, built⟩ := Option.bind_eq_some_iff.1 built
  rw [toOption_eq_some] at compiled built
  rw [beq_iff_eq] at names
  have covers : ∀ name ∈ ["age"], name ∈ ["note", "age"] := by decide
  have agree : Frame.AgreeOn (["age"] ++ introduced pipeline.projection)
      ⟨["note", "age"], [[.text "p", .integer 20], [.text "q", .integer 9]], by simp⟩
      ⟨["note", "age"], [[.null, .integer 20], [.text "r", .integer 9]], by simp⟩ := by
    rw [names]
    refine ⟨rfl, .cons ?_ (.cons ?_ .nil)⟩ <;> unfold RowsAgree <;> decide
  exact ⟨c, pipeline, compiled, built, covers, agree, fun attempts =>
    evaluate_eq_of_agreeOn _ _ attempts _ compiled built covers agree⟩

/-- A column that has the new name of a column already, and stands before it, is read in its place:
frames that agree in the only column of the schema are evaluated to different releases. -/
theorem evaluate_reads_foreign :
    ∃ c pipeline,
      compile (.standard ⟨1e-9, 12, 65536, none⟩) .standard ⟨1, none⟩ .pureDP
        ⟨[⟨"a", .text⟩], by decide⟩
        [.rename (.ofList [("a", "x")]), .filter ["x = 'p'"], .count ⟨"x", .laplace⟩] = .ok c ∧
      c.pipeline = .ok pipeline ∧
      (∀ name ∈ ["a"], name ∈ ["x", "a"]) ∧
      Frame.AgreeOn ["a"] ⟨["x", "a"], [[.text "p", .text "q"]], by simp⟩
        ⟨["x", "a"], [[.text "q", .text "q"]], by simp⟩ ∧
      ∀ attempts,
        (pipeline.evaluate attempts ⟨["x", "a"], [[.text "p", .text "q"]], by simp⟩
          (.ofSeed 1)).1 ≠
        (pipeline.evaluate attempts ⟨["x", "a"], [[.text "q", .text "q"]], by simp⟩
          (.ofSeed 1)).1 := by
  have differ : ((compile (.standard ⟨1e-9, 12, 65536, none⟩) .standard ⟨1, none⟩ .pureDP
      ⟨[⟨"a", .text⟩], by decide⟩
      [.rename (.ofList [("a", "x")]), .filter ["x = 'p'"], .count ⟨"x", .laplace⟩]).toOption.bind
        (·.pipeline.toOption)).any (fun pipeline =>
          (pipeline.evaluate 0 ⟨["x", "a"], [[.text "p", .text "q"]], by simp⟩
            (.ofSeed 1)).1.toOption.any fun first =>
          (pipeline.evaluate 0 ⟨["x", "a"], [[.text "q", .text "q"]], by simp⟩
            (.ofSeed 1)).1.toOption.any fun second => first != second) = true := by decide +kernel
  obtain ⟨pipeline, built, differ⟩ := (Option.any_eq_true _ _).1 differ
  obtain ⟨c, compiled, built⟩ := Option.bind_eq_some_iff.1 built
  obtain ⟨first, ran, differ⟩ := (Option.any_eq_true _ _).1 differ
  obtain ⟨second, ran', differ⟩ := (Option.any_eq_true _ _).1 differ
  rw [toOption_eq_some] at compiled built ran ran'
  refine ⟨c, pipeline, compiled, built, by decide, ⟨rfl, .cons ?_ .nil⟩, fun attempts => ?_⟩
  · unfold RowsAgree
    decide
  · rw [Pipeline.evaluate_settled (Nat.zero_le attempts) (by simp [ran]),
      Pipeline.evaluate_settled (Nat.zero_le attempts) (by simp [ran']), ran, ran']
    simpa using differ

end PrivateQuery
