import PrivateQuery.Proofs.Frame.Filters
import PrivateQuery.Proofs.Pipeline.Lockstep
import PrivateQuery.Proofs.Predicate.Columns

/-!
# Transforms that commute

A selection may be made before or after a filter on columns that it keeps, and before or after one of
these columns gets a new name. On the schema the two orders agree because a list of its columns is
told by their names (`Schema.eq_of_names`), on the frame because a cell stays under its name
(`cellNamed_map`, `cellNamed_newNames`). Both orders are accepted and lead to one working schema and one
frame (`transforms_commute`).
-/
namespace PrivateQuery

variable {schema schema' : Schema} {columns : List String} {old new : String}

/-! ## Schemas -/

namespace Schema

theorem exists_select (distinct : columns.Nodup) (sub : ∀ name ∈ columns, name ∈ schema.names) :
    ∃ schema', schema.select columns = .ok schema' := by
  have each : ∀ name ∈ columns, ∃ column, schema.column name = .ok column := by
    intro name mem
    obtain ⟨column, own, named⟩ := List.mem_map.1 (sub name mem)
    exact ⟨column, column_eq_ok_iff.2 ⟨own, named⟩⟩
  obtain ⟨found, looked⟩ := exists_mapM each
  have apart : (found.map Column.name).Nodup := (columns_of_mapM looked).1.symm ▸ distinct
  exact ⟨⟨found, apart⟩, bind_eq_ok.2 ⟨found, looked, ofColumns_of_distinct apart⟩⟩

theorem exists_rename (own : old ∈ schema.names) (free : new ∉ schema.names) :
    ∃ schema', schema.rename old new = .ok schema' := by
  have taken : schema.contains new = false := by
    rw [Bool.eq_false_iff, Ne, contains_iff]
    exact free
  unfold rename
  rw [if_neg (by simp [contains_iff.2 own]), dif_neg (by simp [taken])]
  exact ⟨_, rfl⟩

theorem eq_of_names {these those : List Column} (sub : ∀ column ∈ these, column ∈ schema.columns)
    (sub' : ∀ column ∈ those, column ∈ schema.columns)
    (names : these.map Column.name = those.map Column.name) : these = those := by
  induction these generalizing those with
  | nil =>
    cases those with
    | nil => rfl
    | cons column those => simp at names
  | cons column these ih =>
    cases those with
    | nil => simp at names
    | cons column' those =>
      obtain ⟨name, names⟩ := List.cons.inj names
      have first := List.inj_on_of_nodup_map schema.distinct (sub column List.mem_cons_self)
        (sub' column' List.mem_cons_self) name
      have rest := ih (fun other mem => sub other (List.mem_cons_of_mem column mem))
        (fun other mem => sub' other (List.mem_cons_of_mem column' mem)) names
      rw [first, rest]

theorem ext (same : schema.columns = schema'.columns) : schema = schema' := by
  cases schema
  cases schema'
  simpa using same

theorem nodup_newNames (distinct : columns.Nodup) (free : new ∉ columns) :
    (columns.map (newName old new)).Nodup := by
  refine List.Nodup.map_on (fun a ha b hb same => ?_) distinct
  unfold newName at same
  split at same
  · split at same
    · simp_all
    · exact absurd (same ▸ hb) free
  · split at same
    · exact absurd (same ▸ ha) free
    · exact same

theorem select_rename {selected renamedFirst : Schema} (free : new ∉ schema.names)
    (kept : schema.select columns = .ok selected) (own : old ∈ columns)
    (renamed : schema.rename old new = .ok renamedFirst) :
    ∃ schema', selected.rename old new = .ok schema' ∧
      renamedFirst.select (columns.map (newName old new)) = .ok schema' := by
  obtain ⟨names, sub⟩ := columns_of_select kept
  obtain ⟨names', mem⟩ := names_of_select kept
  obtain ⟨after, -⟩ := free_of_rename renamed
  obtain ⟨schema', last⟩ : ∃ schema', selected.rename old new = .ok schema' :=
    exists_rename (names ▸ own) fun taken => free (mem new (names ▸ taken))
  obtain ⟨after', -⟩ := free_of_rename last
  have distinct : columns.Nodup := names ▸ selected.distinct
  obtain ⟨schema'', last'⟩ :
      ∃ schema'', renamedFirst.select (columns.map (newName old new)) = .ok schema'' := by
    refine exists_select (nodup_newNames distinct fun taken => free (mem new taken)) ?_
    intro name mem'
    obtain ⟨name, own', rfl⟩ := List.mem_map.1 mem'
    rw [(names_of_rename renamed).2]
    exact List.mem_map_of_mem (mem name own')
  -- Both are columns of the renamed schema, under the same names.
  have same : schema'' = schema' := by
    obtain ⟨under, sub'⟩ := columns_of_select last'
    have sub'' : ∀ column ∈ schema'.columns, column ∈ renamedFirst.columns := by
      intro column mem'
      rw [after', List.mem_map] at mem'
      obtain ⟨column, own', rfl⟩ := mem'
      rw [after]
      exact List.mem_map_of_mem (sub column own')
    refine ext (eq_of_names sub' sub'' ?_)
    change schema''.names = schema'.names
    rw [under, (names_of_rename last).2, names]
    rfl
  exact ⟨schema', last, same ▸ last'⟩

end Schema

/-! ## Frames -/

/-- A cell stays under its name when a column gets a name that is free. -/
theorem cellNamed_newNames {header : List String} {name : String} (free : new ∉ header)
    (mem : name ∈ header) (row : List Value) :
    cellNamed (header.map (newName old new)) row (newName old new name) =
      cellNamed header row name := by
  have same (other : String) (mem' : other ∈ header) :
      (newName old new other == newName old new name) = (other == name) := by
    rw [Bool.eq_iff_iff, beq_iff_eq, beq_iff_eq]
    refine ⟨fun same => ?_, congrArg _⟩
    unfold newName at same
    grind
  have place : (header.map (newName old new)).findIdx? (· == newName old new name) =
      header.findIdx? (· == name) := by
    rw [List.findIdx?_map]
    clear mem free
    induction header with
    | nil => rfl
    | cons other header ih =>
      rw [List.findIdx?_cons, List.findIdx?_cons, Function.comp_apply, same other List.mem_cons_self,
        ih fun other mem => same other (List.mem_cons_of_mem _ mem)]
  rw [cellNamed, cellNamed, Predicate.cell?, Predicate.cell?, place]

/-- A predicate on columns that are kept passes the same rows before and after the others are
dropped. -/
theorem Predicate.passes_selected {p : Predicate} {header : List String} {row : List Value}
    (wide : row.length = header.length) (sub : ∀ name ∈ columns, name ∈ header)
    (own : ∀ name ∈ p.columns, name ∈ columns) :
    p.passes columns (columns.map (cellNamed header row)) = p.passes header row := by
  have same : p.value columns (columns.map (cellNamed header row)) = p.value header row := by
    apply Predicate.value_congr
    intro name mentioned
    have mem := own name mentioned
    rw [Frame.cell?_of_mem (by simp) mem, Frame.cell?_of_mem wide (sub name mem), cellNamed_map mem]
  rw [Bool.eq_iff_iff, passes_iff_value, passes_iff_value, same]

namespace Frame

variable {frame frame' : Frame} {predicates : List Predicate}

theorem ext (header : frame.header = frame'.header) (rows : frame.rows = frame'.rows) :
    frame = frame' := by
  cases frame
  cases frame'
  simp_all

/-- Rows may be filtered before or after columns are dropped that the filters do not look at. -/
theorem filters_select (sub : ∀ name ∈ columns, name ∈ frame.header)
    (own : ∀ p ∈ predicates, ∀ name ∈ p.columns, name ∈ columns) :
    ∃ filtered selected frame', predicates.foldlM Frame.filter frame = .ok filtered ∧
      filtered.select columns = .ok frame' ∧ frame.select columns = .ok selected ∧
      predicates.foldlM Frame.filter selected = .ok frame' ∧ frame'.header = columns := by
  obtain ⟨filtered, first, header, rows⟩ := filters_eq (f := frame) fun p mem name mentioned =>
    sub name (own p mem name mentioned)
  have sub' : ∀ name ∈ columns, name ∈ filtered.header := by rwa [header]
  obtain ⟨frame', second, under, cells⟩ := select_eq sub'
  obtain ⟨selected, first', header', rows'⟩ := select_eq sub
  have own' : ∀ p ∈ predicates, ∀ name ∈ p.columns, name ∈ selected.header := by rwa [header']
  obtain ⟨frame'', second', under', cells'⟩ := filters_eq own'
  have same : frame'' = frame' := by
    refine ext (by rw [under', header', under]) ?_
    rw [cells', cells, rows, header, rows', header', List.filter_map]
    congr 1
    refine List.filter_congr fun row mem => ?_
    simp only [Function.comp_apply]
    rw [Bool.eq_iff_iff, List.all_eq_true, List.all_eq_true]
    refine forall₂_congr fun p mem' => ?_
    rw [Predicate.passes_selected (frame.rectangular row mem) sub (own p mem')]
  exact ⟨filtered, selected, frame', first, second, first', same ▸ second', under⟩

/-- A column may get its new name before or after it is selected. -/
theorem select_rename (distinct : frame.header.Nodup) (distinct' : columns.Nodup)
    (sub : ∀ name ∈ columns, name ∈ frame.header) (own : old ∈ columns)
    (free : new ∉ frame.header) :
    ∃ selected renamed frame', frame.select columns = .ok selected ∧
      selected.rename old new = .ok frame' ∧ frame.rename old new = .ok renamed ∧
      renamed.select (columns.map (newName old new)) = .ok frame' ∧
      frame'.header = columns.map (newName old new) := by
  obtain ⟨selected, first, header, rows⟩ := select_eq sub
  obtain ⟨frame', second, under, cells⟩ := rename_eq (f := selected) new (by rwa [header])
  obtain ⟨renamed, first', header', rows'⟩ := rename_eq new (sub old own)
  rw [set_findIdx distinct] at header'
  rw [header, set_findIdx distinct'] at under
  have sub' : ∀ name ∈ columns.map (newName old new), name ∈ renamed.header := by
    intro name mem
    obtain ⟨before, kept, rfl⟩ := List.mem_map.1 mem
    rw [header']
    exact List.mem_map_of_mem (sub before kept)
  obtain ⟨frame'', second', under', cells'⟩ := select_eq sub'
  have same : frame'' = frame' := by
    refine ext (by rw [under', under]) ?_
    rw [cells', cells, rows, rows', header']
    refine List.map_congr_left fun row _ => ?_
    rw [List.map_map]
    exact List.map_congr_left fun name mem => cellNamed_newNames free (sub name mem) row
  exact ⟨selected, renamed, frame', first, second, first', same ▸ second', under⟩

end Frame

/-! ## Steps -/

/-- Steps are accepted for a schema and lead to a working schema, and what they leave to be done takes a
frame to another. -/
def LeadsTo (library : Library) (parameters : Parameters) (budget : Budget) (notion : Notion)
    (schema : Schema) (frame : Frame) (steps : List Step) (schema' : Schema) (frame' : Frame) : Prop :=
  ∃ c, compile library parameters budget notion schema steps = .ok c ∧
    c.standing = ⟨schema', .awaitingTransform⟩ ∧
    c.state.projection.foldlM FrameOperation.apply frame = .ok frame'

/-- A transform is accepted and changes the schema, and what it leaves to be done changes the frame. -/
structure Advances (terms : Terms) (step : Step) (schema schema' : Schema) (frame frame' : Frame) :
    Prop where
  transforms : step.isTransform = true
  moves : ∃ events, Moves terms ⟨schema, .awaitingTransform⟩ step.operations events
    ⟨schema', .awaitingTransform⟩
  done : step.deferred.foldlM FrameOperation.apply frame = .ok frame'

namespace Advances

variable {terms : Terms} {frame frame' : Frame}

theorem select (kept : schema.select columns = .ok schema')
    (done : frame.select columns = .ok frame') :
    Advances terms (.select columns) schema schema' frame frame' :=
  ⟨rfl, ⟨_, moves_single_iff.2 (.select kept)⟩, by simpa [Step.deferred, FrameOperation.apply]⟩

theorem filter {texts : List String} {predicates : List Predicate}
    (parsed : texts.mapM Predicate.parse = .ok predicates)
    (known : ∀ p ∈ predicates, ∀ name ∈ p.columns, name ∈ schema.names)
    (done : predicates.foldlM Frame.filter frame = .ok frame') :
    Advances terms (.filter texts) schema schema frame frame' := by
  have own : ∀ p ∈ predicates, ∀ name ∈ p.columns, schema.contains name = true :=
    fun p mem name used => Schema.contains_iff.2 (known p mem name used)
  refine ⟨rfl, ⟨_, moves_single_iff.2 (.filter parsed own)⟩, ?_⟩
  rw [Step.deferred, filterMap_of_mapM parsed, List.foldlM_map]
  exact done

theorem rename (renamed : schema.rename old new = .ok schema')
    (done : frame.rename old new = .ok frame') :
    Advances terms (.rename (.ofList [(old, new)])) schema schema' frame frame' := by
  have all : Transition.renameAll .awaitingTransform (Dictionary.ofList [(old, new)]).entries schema =
      .ok schema' := by
    change [(old, new)].foldlM _ schema = _
    simpa using renamed
  refine ⟨rfl, ⟨_, moves_single_iff.2 (.rename (.inl rfl) all)⟩, ?_⟩
  change [FrameOperation.rename old new].foldlM FrameOperation.apply frame = _
  simpa [FrameOperation.apply]

theorem leadsTo {library : Library} {parameters : Parameters} {budget : Budget} {notion : Notion}
    {first second : Step} {middle : Schema} {halfway : Frame}
    (one : Advances (.of budget notion parameters) first schema middle frame halfway)
    (two : Advances (.of budget notion parameters) second middle schema' halfway frame') :
    LeadsTo library parameters budget notion schema frame [first, second] schema' frame' := by
  obtain ⟨before, moves⟩ := one.moves
  obtain ⟨after, moves'⟩ := two.moves
  have both : Moves (.of budget notion parameters) (.start schema)
      ([first, second].flatMap Step.operations) (before ++ after) ⟨schema', .awaitingTransform⟩ := by
    rw [List.flatMap_cons, List.flatMap_singleton]
    exact moves_append_iff.2 ⟨_, _, _, moves, moves', rfl⟩
  have transforms : ∀ step ∈ [first, second], step.isTransform = true := by
    simp [one.transforms, two.transforms]
  have observed : (Assembly.pass library parameters).observeAll (before ++ after) .empty =
      (.ok (), ⟨[first, second].flatMap Step.deferred, none, none⟩) :=
    (observe_transforms both rfl transforms []).2
  refine ⟨⟨_, _⟩, Course.run_eq_ok_iff.2 ⟨_, both, observed⟩, rfl, ?_⟩
  rw [List.flatMap_cons, List.flatMap_singleton, List.foldlM_append, one.done]
  exact two.done

end Advances

/-- **`transforms_commute`**: for every frame that has the columns of a schema, in whatever order, and
every list of distinct columns: filters that look at these columns may stand before or after their
selection, and one of them may get a name that is free before or after it. Both orders are accepted
and lead to the same working schema and the same frame, which has the columns in the order given. -/
theorem transforms_commute (library : Library) (parameters : Parameters) (budget : Budget)
    (notion : Notion) (schema : Schema) (frame : Frame) (columns : List String)
    (own : frame.header.Perm schema.names) (distinct : columns.Nodup)
    (sub : ∀ name ∈ columns, name ∈ schema.names) :
    (∀ texts predicates, texts.mapM Predicate.parse = .ok predicates →
      (∀ p ∈ predicates, ∀ name ∈ p.columns, name ∈ columns) →
      ∃ schema' frame', schema'.names = columns ∧ frame'.header = columns ∧
        LeadsTo library parameters budget notion schema frame
          [.filter texts, .select columns] schema' frame' ∧
        LeadsTo library parameters budget notion schema frame
          [.select columns, .filter texts] schema' frame') ∧
    ∀ old ∈ columns, ∀ new, new ∉ schema.names →
      ∃ schema' frame', schema'.names = columns.map (newName old new) ∧
        frame'.header = columns.map (newName old new) ∧
        LeadsTo library parameters budget notion schema frame
          [.select columns, .rename (.ofList [(old, new)])] schema' frame' ∧
        LeadsTo library parameters budget notion schema frame
          [.rename (.ofList [(old, new)]), .select (columns.map (newName old new))]
          schema' frame' := by
  obtain ⟨selected, kept⟩ := Schema.exists_select distinct sub
  obtain ⟨names, -⟩ := Schema.names_of_select kept
  have has : ∀ name ∈ columns, name ∈ frame.header := fun name mem => own.mem_iff.2 (sub name mem)
  constructor
  · intro texts predicates parsed mentioned
    obtain ⟨filtered, chosen, frame', first, second, first', second', header⟩ :=
      Frame.filters_select has mentioned
    have known : ∀ p ∈ predicates, ∀ name ∈ p.columns, name ∈ schema.names :=
      fun p mem name used => sub name (mentioned p mem name used)
    exact ⟨selected, frame', names, header,
      (Advances.filter parsed known first).leadsTo (.select kept second),
      (Advances.select kept first').leadsTo (.filter parsed (names ▸ mentioned) second')⟩
  · intro old mem new free
    have distinct' : frame.header.Nodup := own.nodup_iff.2 schema.distinct
    obtain ⟨renamed, taken⟩ := Schema.exists_rename (sub old mem) free
    obtain ⟨schema', last, last'⟩ := Schema.select_rename free kept mem taken
    obtain ⟨chosen, named, frame', first, second, first', second', header⟩ :=
      Frame.select_rename distinct' distinct has mem fun taken => free (own.mem_iff.1 taken)
    exact ⟨schema', frame', (Schema.names_of_select last').1, header,
      (Advances.select kept first).leadsTo (.rename last second),
      (Advances.rename taken first').leadsTo (.select last' second')⟩

/-- A schema and a frame that has its columns the other way round. -/
def workers : Schema := ⟨[⟨"age", .int 0 100⟩, ⟨"name", .text⟩, ⟨"job", .text⟩], by decide⟩

def workersFrame : Frame :=
  ⟨["job", "name", "age"], [[.text "Baker", .null, .integer 30], [.text "Smith", .null, .integer 42]],
    by decide⟩

/-- Jobs and ages of adults who are no bakers, and the job under another name. -/
theorem transforms_commute_workers :
    workersFrame.header.Perm workers.names ∧ ["job", "age"].Nodup ∧
    (∀ name ∈ ["job", "age"], name ∈ workers.names) ∧ "trade" ∉ workers.names ∧
    (∃ predicates, ["age > 18", "job <> 'Baker'"].mapM Predicate.parse = .ok predicates ∧
      ∀ p ∈ predicates, ∀ name ∈ p.columns, name ∈ ["job", "age"]) ∧
    (∃ schema' frame', schema'.names = ["job", "age"] ∧ frame'.header = ["job", "age"] ∧
      LeadsTo (.standard .standard) .standard ⟨1, none⟩ .pureDP workers workersFrame
        [.filter ["age > 18", "job <> 'Baker'"], .select ["job", "age"]] schema' frame' ∧
      LeadsTo (.standard .standard) .standard ⟨1, none⟩ .pureDP workers workersFrame
        [.select ["job", "age"], .filter ["age > 18", "job <> 'Baker'"]] schema' frame') ∧
    ∃ schema' frame', schema'.names = ["trade", "age"] ∧ frame'.header = ["trade", "age"] ∧
      LeadsTo (.standard .standard) .standard ⟨1, none⟩ .pureDP workers workersFrame
        [.select ["job", "age"], .rename (.ofList [("job", "trade")])] schema' frame' ∧
      LeadsTo (.standard .standard) .standard ⟨1, none⟩ .pureDP workers workersFrame
        [.rename (.ofList [("job", "trade")]), .select ["trade", "age"]] schema' frame' := by
  have own : workersFrame.header.Perm workers.names := by decide
  have distinct : ["job", "age"].Nodup := by decide
  have sub : ∀ name ∈ ["job", "age"], name ∈ workers.names := by decide
  have free : "trade" ∉ workers.names := by decide
  have read : (["age > 18", "job <> 'Baker'"].mapM Predicate.parse).toOption.any
      (fun predicates => predicates.all fun p => p.columns.all ["job", "age"].contains) = true := by
    decide +kernel
  obtain ⟨predicates, parsed, mentioned⟩ := (Option.any_eq_true _ _).1 read
  rw [toOption_eq_some] at parsed
  simp only [List.all_eq_true, List.contains_iff_mem] at mentioned
  obtain ⟨filters, renames⟩ := transforms_commute (.standard .standard) .standard ⟨1, none⟩ .pureDP
    workers workersFrame ["job", "age"] own distinct sub
  exact ⟨own, distinct, sub, free, ⟨predicates, parsed, mentioned⟩,
    filters _ predicates parsed mentioned, renames "job" (by decide) "trade" free⟩

end PrivateQuery
