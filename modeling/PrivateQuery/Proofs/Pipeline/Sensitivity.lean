import PrivateQuery.Proofs.Aggregate.Sensitivity
import PrivateQuery.Proofs.Frame.Rowwise
import PrivateQuery.Proofs.Privacy.Budget

/-!
# Sensitivity of pipelines

When rows are inserted into a frame, at whatever places, the aggregate that a compiled query takes of
it moves no further than its sensitivity allows (`aggregate_near`). The projection acts row by row, so
the inserted rows give at most as many new values, and they stand between the old ones.
-/
namespace PrivateQuery

theorem Awaits.column_mem {terms : Terms} {schema : Schema} {step : Step} {pending : Pending}
    (awaits : Awaits terms schema step pending) :
    pending.transformation.column ∈ schema.names := by
  cases awaits with
  | count typed => exact Schema.mem_names_of_typeOf typed
  | histogram typed => exact Schema.mem_names_of_typeOf typed
  | integerSum typed => exact Schema.mem_names_of_typeOf typed
  | floatSum typed => exact Schema.mem_names_of_typeOf typed

theorem length_filterMap_le_of_sublist {α β : Type} (f : α → Option β) {l l' : List α}
    (sub : l.Sublist l') :
    (l'.filterMap f).length + l.length ≤ (l.filterMap f).length + l'.length := by
  induction sub with
  | slnil => exact le_rfl
  | @cons l l' a sub ih =>
    have most : ((a :: l').filterMap f).length ≤ (l'.filterMap f).length + 1 := by
      cases h : f a <;> simp [h]
    simp only [List.length_cons]
    omega
  | @cons_cons l l' a sub ih =>
    cases h : f a <;> simp only [List.filterMap_cons, h, List.length_cons] <;> omega

/-- The column that operations leave of a frame, row by row. -/
theorem Rowwise.column {ops : List FrameOperation} {header header' : List String}
    (rowwise : Rowwise ops header header') {name : String} (mem : name ∈ header') :
    ∃ g : List Value → Option Value, ∀ frame : Frame, frame.header = header →
      ∃ frame', ops.foldlM FrameOperation.apply frame = .ok frame' ∧
        frame'.column name = .ok (frame.rows.filterMap g) := by
  obtain ⟨f, hf⟩ := rowwise
  refine ⟨fun row => (f row).map fun row => cellNamed header' row name, fun frame same => ?_⟩
  obtain ⟨frame', done, under, rows⟩ := hf frame same
  subst under
  refine ⟨frame', done, ?_⟩
  rw [Frame.column_eq mem, rows, List.map_filterMap]

variable {calibration parameters : Parameters} {budget : Budget} {notion : Notion}
variable {schema : Schema} {steps : List Step} {c : Course Assembly} {pipeline : Pipeline}

/-- A compiled pipeline projects to a schema that has the column it measures. -/
theorem pipeline_projects
    (compiled : compile (.standard calibration) parameters budget notion schema steps = .ok c)
    (built : c.pipeline = .ok pipeline) :
    ∃ working : Schema, Projects schema pipeline.projection working ∧
      pipeline.measurement.transformation.column ∈ working.names := by
  obtain ⟨working, step, measure, pending, projects, due, found⟩ := pipeline_due compiled built
  obtain ⟨scale, -, made⟩ := bind_eq_ok.1 found
  obtain ⟨same, -⟩ := measurementAt_standard_eq_ok made
  refine ⟨working, projects, ?_⟩
  rw [same]
  exact due.awaits.column_mem

/-- **`aggregate_near`**: on two frames of which one is the other with `rows` rows inserted, the
pipeline of a query measures aggregates that are as near as `rows` rows allow. -/
theorem aggregate_near (frame frame' : Frame) (rows : ℕ)
    (compiled : compile (.standard calibration) parameters budget notion schema steps = .ok c)
    (built : c.pipeline = .ok pipeline)
    (same : frame'.header = frame.header) (covers : ∀ name ∈ schema.names, name ∈ frame.header)
    (inserted : frame.rows.Sublist frame'.rows)
    (more : frame'.rows.length = frame.rows.length + rows) :
    ∃ left left' values values', pipeline.project frame = .ok left ∧
      pipeline.project frame' = .ok left' ∧
      left.column pipeline.measurement.transformation.column = .ok values ∧
      left'.column pipeline.measurement.transformation.column = .ok values' ∧
      pipeline.measurement.transformation.apply left =
        .ok (pipeline.measurement.transformation.applyTo values) ∧
      pipeline.measurement.transformation.apply left' =
        .ok (pipeline.measurement.transformation.applyTo values') ∧
      pipeline.measurement.transformation.Near rows values values' := by
  obtain ⟨working, projects, measured⟩ := pipeline_projects compiled built
  obtain ⟨header', covers', rowwise⟩ := rowwise_projects projects covers
  obtain ⟨g, columns⟩ := rowwise.column (covers' _ measured)
  obtain ⟨left, done, column⟩ := columns frame rfl
  obtain ⟨left', done', column'⟩ := columns frame' same
  refine ⟨left, left', _, _, done, done', column, column', ?_, ?_, ?_⟩
  · simp [Transformation.apply, column, Except.map]
  · simp [Transformation.apply, column', Except.map]
  · have short := length_filterMap_le_of_sublist g inserted
    exact Transformation.near_of_sublist (inserted.filterMap g) (by omega) _

/-- A row inserted between two moves the exact sum of incomes by no more than their upper bound. -/
theorem aggregate_near_incomes :
    ∃ c pipeline left left' values values',
      compile (.standard ⟨1e-9, 12, 65536, none⟩) .standard ⟨1, none⟩ .pureDP
        ⟨[⟨"income", .double 0 100⟩], by decide⟩
        [.filter ["income > 18"], .sum ⟨"income", .laplace⟩] = .ok c ∧
      c.pipeline = .ok pipeline ∧
      pipeline.measurement.transformation = .floatSum "income" 0 100 ∧
      pipeline.project ⟨["income"], [[.real 20], [.real 90]], by simp⟩ = .ok left ∧
      pipeline.project ⟨["income"], [[.real 20], [.real 150], [.real 90]], by simp⟩ = .ok left' ∧
      left.column "income" = .ok values ∧ left'.column "income" = .ok values' ∧
      pipeline.measurement.transformation.apply left =
        .ok (.real (Transformation.sumParts id 0 100 values)) ∧
      pipeline.measurement.transformation.apply left' =
        .ok (.real (Transformation.sumParts id 0 100 values')) ∧
      |Transformation.sumParts Transformation.rational 0 100 values' -
        Transformation.sumParts Transformation.rational 0 100 values| ≤ 100 := by
  have built : ((compile (.standard ⟨1e-9, 12, 65536, none⟩) .standard ⟨1, none⟩ .pureDP
      ⟨[⟨"income", .double 0 100⟩], by decide⟩
      [.filter ["income > 18"], .sum ⟨"income", .laplace⟩]).toOption.bind
        (·.pipeline.toOption)).any
          (·.measurement.transformation = .floatSum "income" 0 100) = true := by decide +kernel
  obtain ⟨pipeline, built, summed⟩ := (Option.any_eq_true _ _).1 built
  obtain ⟨c, compiled, built⟩ := Option.bind_eq_some_iff.1 built
  rw [toOption_eq_some] at compiled built
  have summed := of_decide_eq_true summed
  obtain ⟨left, left', values, values', done, done', column, column', applied, applied', near⟩ :=
    aggregate_near ⟨["income"], [[.real 20], [.real 90]], by simp⟩
      ⟨["income"], [[.real 20], [.real 150], [.real 90]], by simp⟩ 1 compiled built
      (by dsimp only) (by decide) (((List.Sublist.refl _).cons _).cons_cons _) (by simp)
  rw [summed] at column column' applied applied' near
  obtain ⟨same, same', near⟩ := near
  have low : Binary64.value? 0 = some 0 := by decide +kernel
  have high : Binary64.value? 100 = some 100 := by decide +kernel
  refine ⟨c, pipeline, left, left', values, values', compiled, built, summed, done, done', column,
    column', ?_, ?_, ?_⟩
  · rw [summed, applied, same]
  · rw [summed, applied', same']
  · simpa using (near 0 100 low high).2

end PrivateQuery
