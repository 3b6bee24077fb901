import PrivateQuery.Proofs.Pipeline.Lockstep

/-!
# The phases of a compiled query

A complete query has been assembled in three phases: its transforms note a projection, the steps of
its measure build the pipeline, and what follows only gives new names (`compile_phases`). When the
measure is due nothing has been measured yet, and the projection leads to the working schema
(`prepared_projects`). The steps of a histogram are then taken exactly when its bin suits the column
and its count can be calibrated (`run_histogram_iff`).
-/
namespace PrivateQuery

open Assembly

variable {library : Library} {parameters : Parameters} {budget : Budget} {notion : Notion}
variable {schema : Schema} {steps : List Step}

theorem Course.pipeline_eq_ok_iff {c : Course Assembly} {pipeline : Pipeline} :
    c.pipeline = .ok pipeline ↔
      c.standing.stage = .noiseAdded ∧ c.state.pipeline? = some pipeline := by
  unfold Course.pipeline
  split
  · rename_i noised held
    simp [noised, held]
  · rename_i other
    constructor
    · intro built
      simp at built
    · rintro ⟨noised, held⟩
      exact absurd held (other pipeline noised)

/-- **`compile_phases`**: compiling a complete query is compiling its transforms, then taking the steps
of its measure and then the new names. -/
theorem compile_phases {c : Course Assembly}
    (compiled : compile library parameters budget notion schema steps = .ok c)
    (finished : c.standing.finish = .ok ()) :
    ∃ before measured after measure prepared noised,
      steps = before ++ measured ++ after ∧ (∀ step ∈ before, step.isTransform = true) ∧
      Measures measure measured ∧ (∀ step ∈ after, step.isRename = true) ∧
      compile library parameters budget notion schema before = .ok prepared ∧
      Course.run (pass library parameters) (.of budget notion parameters) measured prepared =
        .ok noised ∧
      Course.run (pass library parameters) (.of budget notion parameters) after noised = .ok c := by
  obtain ⟨events, moves, -⟩ := Course.run_eq_ok_iff.1 compiled
  obtain ⟨before, measured, after, measure, split, transforms, measures, renames, -⟩ :=
    shape_of_moves moves finished
  subst split
  rw [compile, Course.run_append, Course.run_append] at compiled
  obtain ⟨noised, compiled, trailing⟩ := bind_eq_ok.1 compiled
  obtain ⟨prepared, compiled, measuring⟩ := bind_eq_ok.1 compiled
  exact ⟨before, measured, after, measure, prepared, noised, rfl, transforms, measures, renames,
    compiled, measuring, trailing⟩

/-- Transforms leave a projection to the working schema, and nothing else. -/
theorem prepared_projects {prepared : Course Assembly}
    (compiled : compile library parameters budget notion schema steps = .ok prepared)
    (transforms : ∀ step ∈ steps, step.isTransform = true) :
    ∃ working, prepared =
        ⟨⟨working, .awaitingTransform⟩, ⟨steps.flatMap Step.deferred, none, none⟩⟩ ∧
      Projects schema (steps.flatMap Step.deferred) working := by
  obtain ⟨events, moves, observed⟩ := Course.run_eq_ok_iff.1 compiled
  obtain ⟨stage, noted⟩ := observe_transforms moves rfl transforms []
  have fits := compile_fits compiled
  generalize measuring steps = taken at fits
  obtain ⟨⟨working, _⟩, a⟩ := prepared
  cases stage
  obtain rfl : a = ⟨steps.flatMap Step.deferred, none, none⟩ :=
    congrArg Prod.snd (observed.symm.trans noted)
  cases fits with
  | transforming projects => exact ⟨working, rfl, projects⟩

/-! ## Histograms -/

/-- A count of a column by categories that waits for its noise. -/
def Pending.byCategories (column : String) (categories : List Value) : Pending :=
  ⟨.countBy column categories, true, column, some categories⟩

/-- Where a bin and its count are legal, with the events of their operations. -/
theorem moves_histogram_iff {terms : Terms} {b : Bin} {measure : Measure} {events : List Event}
    {s : Standing} :
    Moves terms ⟨schema, .awaitingTransform⟩ [.bin b, .count measure, .noise] events s ↔
      ∃ type, schema.typeOf b.column = .ok type ∧ Value.allDistinct b.values = true ∧
        Transition.checkBins terms.maxCategories b type = .ok () ∧ b.column = measure.column ∧
        checkCompatibility terms.budget terms.notion measure.mechanism = .ok () ∧
        events = [.bin b type, .count measure.column type (some b) measure.mechanism,
          .noise terms.budget terms.notion measure.mechanism] ∧
        s = ⟨schema, .noiseAdded⟩ := by
  constructor
  · intro moves
    cases moves with
    | cons accepted rest =>
      cases accepted with
      | @bin _ _ type typed distinct checked =>
        cases rest with
        | cons accepted rest =>
          cases accepted with
          | countBinned typed' binned =>
            rw [binned, typed'] at typed
            cases typed
            cases moves_single_iff.1 rest with
            | noise compatible =>
              exact ⟨type, binned ▸ typed', distinct, checked, binned, compatible, rfl, rfl⟩
  · rintro ⟨type, typed, distinct, checked, binned, compatible, rfl, rfl⟩
    exact .cons (.bin typed distinct checked) (.cons (.countBinned (binned ▸ typed) binned)
      (.cons (.noise compatible) .nil))

/-- **`run_histogram_iff`**: where nothing has been measured yet, a bin and its count are taken exactly
when the bin suits its column and the count by its categories can be calibrated. -/
theorem run_histogram_iff {terms : Terms} {ops : List FrameOperation} {b : Bin} {measure : Measure}
    {noised : Course Assembly} :
    Course.run (pass library parameters) terms [.bin b, .count measure]
        ⟨⟨schema, .awaitingTransform⟩, ⟨ops, none, none⟩⟩ = .ok noised ↔
      ∃ type categories measurement,
        schema.typeOf b.column = .ok type ∧ Value.allDistinct b.values = true ∧
        Transition.checkBins terms.maxCategories b type = .ok () ∧ b.column = measure.column ∧
        checkCompatibility terms.budget terms.notion measure.mechanism = .ok () ∧
        Assembly.categories b type = .ok categories ∧
        calibrated library terms.budget terms.notion measure.mechanism
          (.byCategories measure.column categories) = .ok measurement ∧
        noised = ⟨⟨schema, .noiseAdded⟩, ⟨ops, some (.byCategories measure.column categories),
          some ⟨ops, measurement, measure.column, some categories, parameters.seed?⟩⟩⟩ := by
  -- What the pass makes of the events, up to the noise.
  have observed {type : ColumnType} {categories : List Value}
      (listed : Assembly.categories b type = .ok categories) :
      (pass library parameters).observeAll
          [.bin b type, .count measure.column type (some b) measure.mechanism,
            .noise terms.budget terms.notion measure.mechanism] ⟨ops, none, none⟩ =
        (pass library parameters).observeAll [.noise terms.budget terms.notion measure.mechanism]
          ⟨ops, some (.byCategories measure.column categories), none⟩ := by
    simp [Pass.observeAll, Assembly.pass, after, pendingCount, listed, Attempt.ofExcept, bind,
      Except.bind, pure, Except.pure, Pending.byCategories]
  rw [Course.run_eq_ok_iff]
  constructor
  · rintro ⟨events, moves, seen⟩
    obtain ⟨type, typed, distinct, checked, binned, compatible, rfl, stands⟩ :=
      moves_histogram_iff.1 moves
    obtain ⟨categories, listed⟩ := categories_of_checkBins checked
    rw [observed listed, observeAll_noise] at seen
    split at seen
    · rename_i measurement found
      refine ⟨type, categories, measurement, typed, distinct, checked, binned, compatible, listed,
        found, ?_⟩
      obtain ⟨s, a⟩ := noised
      cases stands
      cases seen
      rfl
    · simp at seen
  · rintro ⟨type, categories, measurement, typed, distinct, checked, binned, compatible, listed,
      found, rfl⟩
    refine ⟨_, moves_histogram_iff.2 ⟨type, typed, distinct, checked, binned, compatible, rfl, rfl⟩,
      ?_⟩
    rw [observed listed, observeAll_noise, found]
    rfl

end PrivateQuery
