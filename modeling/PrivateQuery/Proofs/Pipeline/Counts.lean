import PrivateQuery.Proofs.Aggregate.Counting
import PrivateQuery.Proofs.Pipeline.Categories
import PrivateQuery.Proofs.Pipeline.Label

/-!
# The counts of a histogram

A query that bins a column counts it by the categories that its bin lists (`compile_histogram`), so
with a library that chains the aggregations it is given each raw count is the number of projected
rows in the category of its place (`histogram_counts`).
-/
namespace PrivateQuery

open Assembly

/-! ## Libraries -/

/-- The measurements that a library chains are of the aggregation that it is given. -/
def Library.Chains (library : Library) : Prop :=
  ∀ t mechanism discrete scale measurement,
    library.addNoise t mechanism discrete scale = .ok measurement → measurement.transformation = t

theorem Library.standard_chains (parameters : Parameters) : (standard parameters).Chains := by
  intro t mechanism discrete scale measurement chained
  obtain ⟨noise, -, made⟩ := bind_eq_ok.1 (Attempt.ofExcept_eq_ok.1 chained)
  cases made
  rfl

theorem transformation_of_fixDelta {m m' : Measurement} {delta : Float}
    (fixed : m.fixDelta delta = .ok m') : m'.transformation = m.transformation := by
  unfold Measurement.fixDelta at fixed
  split at fixed
  · simp at fixed
  · split at fixed
    · cases fixed
      rfl
    · simp at fixed

variable {library : Library} {parameters : Parameters} {budget : Budget} {notion : Notion}
variable {schema : Schema} {steps : List Step} {c : Course Assembly} {pipeline : Pipeline} {b : Bin}

/-- What is calibrated for a measure is of its aggregation. -/
theorem transformation_of_calibrated (chains : library.Chains) {mechanism : Mechanism}
    {pending : Pending} {measurement : Measurement}
    (found : calibrated library budget notion mechanism pending = .ok measurement) :
    measurement.transformation = pending.transformation := by
  obtain ⟨scale, -, made⟩ := bind_eq_ok.1 found
  obtain ⟨chained, first, rest⟩ := bind_eq_ok.1 made
  rw [← chains _ _ _ _ _ first]
  split at rest
  · exact transformation_of_fixDelta (Attempt.ofExcept_eq_ok.1 rest)
  · cases rest
    rfl

/-! ## Queries -/

/-- **`compile_histogram`**: a bin of a complete query is followed by a count of its column. It suits the
column as it is by then, and the measurement has been calibrated for a count by what it lists. -/
theorem compile_histogram
    (compiled : compile library parameters budget notion schema steps = .ok c)
    (built : c.pipeline = .ok pipeline) (binned : Step.bin b ∈ steps) :
    ∃ (before : List Step) (measure : Measure) (after : List Step) (prepared : Course Assembly)
      (type : ColumnType) (categories : List Value),
      steps = before ++ [.bin b, .count measure] ++ after ∧ b.column = measure.column ∧
      compile library parameters budget notion schema before = .ok prepared ∧
      prepared.standing.schema.typeOf b.column = .ok type ∧
      Projects schema pipeline.projection prepared.standing.schema ∧
      pipeline.categories? = some categories ∧
      b.Lists parameters.maxCategories type categories ∧ Value.Distinct categories ∧
      calibrated library budget notion measure.mechanism (.byCategories b.column categories) =
        .ok pipeline.measurement := by
  obtain ⟨noised, held⟩ := Course.pipeline_eq_ok_iff.1 built
  have finished : c.standing.finish = .ok () := by rw [Standing.finish, noised]
  obtain ⟨before, measured, after, measure, prepared, last, split, transforms, measures, renames,
    compiled', measuring, trailing⟩ := compile_phases compiled finished
  subst split
  obtain ⟨working, rfl, projects⟩ := prepared_projects compiled' transforms
  -- The bin is neither a transform nor a new name.
  have own : Step.bin b ∈ measured := by
    simp only [List.mem_append] at binned
    rcases binned with (early | own) | late
    · simpa [Step.isTransform] using transforms _ early
    · exact own
    · simpa [Step.isRename] using renames _ late
  cases measures with
  | count => simp at own
  | sum => simp at own
  | histogram =>
    obtain rfl : b = _ := by simpa using own
    obtain ⟨type, categories, measurement, typed, distinct, checked, same, -, listed, found, rfl⟩ :=
      run_histogram_iff.1 measuring
    obtain ⟨trailed, moves, observed⟩ := Course.run_eq_ok_iff.1 trailing
    obtain ⟨-, relabelled⟩ := observe_newNames moves rfl renames rfl observed
    rw [held, Option.some.injEq] at relabelled
    subst relabelled
    have lists := Bin.lists_of_checkBins checked listed
    exact ⟨before, measure, after, _, type, categories, rfl, same, compiled', typed, projects, rfl,
      lists, lists.distinct (Value.allDistinct_iff.1 distinct), same ▸ found⟩

/-- A frame that covers the schema of a projection is left with the columns that the projection leads
to. -/
theorem projected_covers {working : Schema} {frame projected : Frame}
    (projects : Projects schema pipeline.projection working)
    (covers : ∀ name ∈ schema.names, name ∈ frame.header)
    (done : pipeline.project frame = .ok projected) :
    ∀ name ∈ working.names, name ∈ projected.header := by
  obtain ⟨header, covers', rowwise⟩ := rowwise_projects projects covers
  obtain ⟨f, hf⟩ := rowwise
  obtain ⟨frame', done', rfl, -⟩ := hf frame rfl
  cases done.symm.trans done'
  exact covers'

/-- **`histogram_counts`**: a query with a bin counts the column of its bin by distinct categories, which
are the words from the first to the last one if the column is of integers and the values of the bin
otherwise. Where the projection of a frame has the column, as it does if the frame covers the schema,
each raw count is the number of projected rows whose cell is the category of its place; a row counts at
most once, and the counts add up to the number of rows whose cell is some category. -/
theorem histogram_counts (library : Library) (chains : library.Chains) (parameters : Parameters)
    (budget : Budget) (notion : Notion) (schema : Schema) (steps : List Step) (c : Course Assembly)
    (pipeline : Pipeline) (b : Bin)
    (compiled : compile library parameters budget notion schema steps = .ok c)
    (built : c.pipeline = .ok pipeline) (binned : Step.bin b ∈ steps) :
    ∃ (before : List Step) (measure : Measure) (after : List Step) (prepared : Course Assembly)
      (type : ColumnType) (categories : List Value),
      steps = before ++ [.bin b, .count measure] ++ after ∧ b.column = measure.column ∧
      compile library parameters budget notion schema before = .ok prepared ∧
      prepared.standing.schema.typeOf b.column = .ok type ∧
      pipeline.categories? = some categories ∧
      b.Lists parameters.maxCategories type categories ∧ Value.Distinct categories ∧
      pipeline.measurement.transformation = .countBy b.column categories ∧
      ∀ frame projected, pipeline.project frame = .ok projected →
        ((∀ name ∈ schema.names, name ∈ frame.header) → b.column ∈ projected.header) ∧
        (b.column ∈ projected.header → ∃ counts,
          Transformation.CountsBy b.column categories projected counts ∧
          pipeline.measurement.transformation.apply projected =
            .ok (.counts (counts.map Transformation.tally))) ∧
        (b.column ∉ projected.header →
          pipeline.measurement.transformation.apply projected =
            .error (.missingColumn b.column)) := by
  obtain ⟨before, measure, after, prepared, type, categories, split, same, compiled', typed, projects,
    listed, lists, distinct, found⟩ := compile_histogram compiled built binned
  have counted : pipeline.measurement.transformation = .countBy b.column categories :=
    transformation_of_calibrated chains found
  refine ⟨before, measure, after, prepared, type, categories, split, same, compiled', typed, listed,
    lists, distinct, counted, ?_⟩
  intro frame projected done
  rw [counted]
  refine ⟨fun covers => ?_, fun own => Transformation.apply_countBy distinct own, fun missing => ?_⟩
  · exact projected_covers projects covers done _ (Schema.mem_names_of_typeOf typed)
  · exact Transformation.apply_of_missing missing

/-- Ages by year from 20 to 22. A missing age and one beyond the bins are not counted. -/
theorem histogram_counts_ages :
    ∃ c pipeline,
      (Library.standard ⟨1e-9, 12, 65536, none⟩).Chains ∧
      compile (.standard ⟨1e-9, 12, 65536, none⟩) .standard ⟨1, none⟩ .pureDP
        ⟨[⟨"age", .int 0 100⟩], by decide⟩
        [.bin ⟨"age", [.integer 20, .integer 22]⟩, .count ⟨"age", .laplace⟩] = .ok c ∧
      c.pipeline = .ok pipeline ∧
      Step.bin ⟨"age", [.integer 20, .integer 22]⟩ ∈
        [.bin ⟨"age", [.integer 20, .integer 22]⟩, .count ⟨"age", .laplace⟩] ∧
      pipeline.categories? = some [.integer 20, .integer 21, .integer 22] ∧
      pipeline.project ⟨["age"], [[.integer 22], [.null], [.integer 21], [.integer 50], [.integer 22]],
        by decide⟩ = .ok ⟨["age"],
          [[.integer 22], [.null], [.integer 21], [.integer 50], [.integer 22]], by decide⟩ ∧
      pipeline.measurement.transformation.apply
        ⟨["age"], [[.integer 22], [.null], [.integer 21], [.integer 50], [.integer 22]], by decide⟩ =
          .ok (.counts [0, 1, 2]) := by
  have typed : Schema.typeOf ⟨[⟨"age", .int 0 100⟩], by decide⟩ "age" = .ok (.int 0 100) := by
    rw [← toOption_eq_some]
    decide +kernel
  have distinct : Value.allDistinct [.integer 20, .integer 22] = true :=
    Value.allDistinct_iff.2 (by decide)
  have checked : Transition.checkBins 65536 ⟨"age", [.integer 20, .integer 22]⟩ (.int 0 100) =
      .ok () := by
    rw [← toOption_eq_some]
    decide +kernel
  have compatible : checkCompatibility ⟨1, none⟩ .pureDP .laplace = .ok () := by
    rw [← toOption_eq_some]
    decide +kernel
  have listed : Assembly.categories ⟨"age", [.integer 20, .integer 22]⟩ (.int 0 100) =
      .ok [.integer 20, .integer 21, .integer 22] := by
    rw [← toOption_eq_some]
    decide +kernel
  have calibrates : (calibrated (.standard ⟨1e-9, 12, 65536, none⟩) ⟨1, none⟩ .pureDP .laplace
      (.byCategories "age" [.integer 20, .integer 21, .integer 22])).toOption.isSome = true := by
    decide +kernel
  obtain ⟨measurement, found⟩ := Option.isSome_iff_exists.1 calibrates
  rw [toOption_eq_some] at found
  have compiled : compile (.standard ⟨1e-9, 12, 65536, none⟩) .standard ⟨1, none⟩ .pureDP
      ⟨[⟨"age", .int 0 100⟩], by decide⟩
      [.bin ⟨"age", [.integer 20, .integer 22]⟩, .count ⟨"age", .laplace⟩] =
      .ok ⟨⟨⟨[⟨"age", .int 0 100⟩], by decide⟩, .noiseAdded⟩,
        ⟨[], some (.byCategories "age" [.integer 20, .integer 21, .integer 22]),
          some ⟨[], measurement, "age", some [.integer 20, .integer 21, .integer 22], none⟩⟩⟩ :=
    run_histogram_iff.2
      ⟨_, _, measurement, typed, distinct, checked, rfl, compatible, listed, found, rfl⟩
  have chains := Library.standard_chains ⟨1e-9, 12, 65536, none⟩
  refine ⟨_, _, chains, compiled, rfl, List.mem_cons_self, rfl, rfl, ?_⟩
  obtain ⟨-, -, -, -, -, categories, -, -, -, -, held, -, -, -, counts⟩ :=
    histogram_counts _ chains _ _ _ _ _ _ _ _ compiled rfl List.mem_cons_self
  cases held
  obtain ⟨own, counted, -⟩ := counts
    ⟨["age"], [[.integer 22], [.null], [.integer 21], [.integer 50], [.integer 22]], by decide⟩ _ rfl
  obtain ⟨counts, ⟨each, -, -, -⟩, applied⟩ := counted (own fun name mem => mem)
  have three : counts = [0, 1, 2] := each.trans (by decide +kernel)
  rw [three] at applied
  exact applied

end PrivateQuery
