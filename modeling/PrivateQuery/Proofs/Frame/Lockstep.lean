import PrivateQuery.Proofs.Frame.Origin

/-!
# Frames in step with schemas

On a frame whose columns are those of a schema, in whatever order, operations that are legal on the
schema leave the columns of the working schema (`carried_of_projects`). The rows left are those that
pass the filters, and of each the cells under the names that the columns had before the operations.
Each operation keeps this (`Carried.select`, `Carried.filter`, `Carried.rename`).
-/
namespace PrivateQuery

/-- Whether a row passes all filters among operations. -/
def survives (ops : List FrameOperation) (header : List String) (row : List Value) : Bool :=
  (filters ops).all fun p => p.passes header row

/-- What operations leave of a row under some names: the cells under the names before them. -/
def carry (ops : List FrameOperation) (header names : List String) (row : List Value) :
    List Value :=
  names.map fun name => cellNamed header row (origin ops name)

/-- Operations take a frame to one with the columns of a schema, row by row. -/
structure Carried (ops : List FrameOperation) (schema : Schema) (frame frame' : Frame) : Prop where
  done : ops.foldlM FrameOperation.apply frame = .ok frame'
  header : frame'.header.Perm schema.names
  rows : frame'.rows =
    (frame.rows.filter (survives ops frame.header)).map (carry ops frame.header frame'.header)

/-! ## Cells by name -/

theorem cellNamed_cons_self (name : String) (header : List String) (v : Value) (row : List Value) :
    cellNamed (name :: header) (v :: row) name = v := by
  simp [cellNamed, Predicate.cell?, List.findIdx?_cons]

theorem cellNamed_cons_of_ne {name other : String} (ne : other ≠ name) (header : List String)
    (v : Value) (row : List Value) :
    cellNamed (other :: header) (v :: row) name = cellNamed header row name := by
  have differ : (other == name) = false := by simpa using ne
  unfold cellNamed Predicate.cell?
  rw [List.findIdx?_cons, differ]
  cases header.findIdx? (· == name) <;> rfl

/-- The cells under all names of a header are the row. -/
theorem map_cellNamed {header : List String} {row : List Value} (distinct : header.Nodup)
    (wide : row.length = header.length) : header.map (cellNamed header row) = row := by
  induction header generalizing row with
  | nil =>
    rw [List.length_nil, List.length_eq_zero_iff] at wide
    simp [wide]
  | cons name header ih =>
    obtain ⟨v, row, rfl⟩ := List.exists_cons_of_length_eq_add_one wide
    obtain ⟨new, distinct⟩ := List.nodup_cons.1 distinct
    have rest : header.map (cellNamed (name :: header) (v :: row)) =
        header.map (cellNamed header row) := by
      apply List.map_congr_left
      intro other mem
      have ne : name ≠ other := by
        rintro rfl
        exact new mem
      exact cellNamed_cons_of_ne ne header v row
    rw [List.map_cons, cellNamed_cons_self, rest, ih distinct (by simpa using wide)]

theorem cellNamed_map {names : List String} {name : String} (mem : name ∈ names)
    (cell : String → Value) : cellNamed names (names.map cell) name = cell name := by
  induction names with
  | nil => simp at mem
  | cons other names ih =>
    rw [List.map_cons]
    by_cases same : other = name
    · rw [same, cellNamed_cons_self]
    · rw [cellNamed_cons_of_ne same]
      exact ih ((List.mem_cons.1 mem).resolve_left fun h => same h.symm)

/-- Where no name is repeated, a rename changes every name that is the old one. -/
theorem set_findIdx {header : List String} (distinct : header.Nodup) (old new : String) :
    header.set (header.findIdx (· == old)) new = header.map (newName old new) := by
  induction header with
  | nil => rfl
  | cons name header ih =>
    obtain ⟨fresh, distinct⟩ := List.nodup_cons.1 distinct
    by_cases same : name = old
    · subst same
      have rest : header.map (newName name new) = header.map id := by
        apply List.map_congr_left
        intro other mem
        apply if_neg
        rintro rfl
        exact fresh mem
      simp [List.findIdx_cons, newName, rest]
    · have later : (name == old) = false := beq_eq_false_iff_ne.2 same
      simp [List.findIdx_cons, later, ih distinct, newName, same]

/-! ## Operations -/

variable {source schema schema' : Schema} {ops : List FrameOperation} {frame middle frame' : Frame}

theorem survives_append (ops more : List FrameOperation) (header : List String)
    (row : List Value) :
    survives (ops ++ more) header row =
      (survives ops header row &&
        (filters more).all fun p => (p.mapColumns (origin ops)).passes header row) := by
  simp [survives, filters_append, List.all_map, Function.comp_def]

namespace Carried

theorem nil (own : frame.header.Perm source.names) : Carried [] source frame frame := by
  have distinct : frame.header.Nodup := own.nodup_iff.2 source.distinct
  have same (row : List Value) (mem : row ∈ frame.rows) :
      carry [] frame.header frame.header row = row :=
    map_cellNamed distinct (frame.rectangular row mem)
  have all : frame.rows.filter (survives [] frame.header) = frame.rows := by
    simp [survives, filters]
  refine ⟨rfl, own, ?_⟩
  rw [all, List.map_congr_left same, List.map_id']

theorem select {columns : List String} (carried : Carried ops schema frame middle)
    (kept : schema.select columns = .ok schema') :
    ∃ frame', Carried (ops ++ [.select columns]) schema' frame frame' := by
  obtain ⟨names, sub⟩ := Schema.names_of_select kept
  have has (name : String) (mem : name ∈ columns) : name ∈ middle.header :=
    carried.header.mem_iff.2 (sub name mem)
  obtain ⟨frame', selected, under, rows⟩ := Frame.select_eq has
  have survivors : survives (ops ++ [.select columns]) = survives ops := by
    funext header row
    simp [survives_append, filters]
  have cells (row : List Value) :
      columns.map (cellNamed middle.header (carry ops frame.header middle.header row)) =
        carry (ops ++ [.select columns]) frame.header columns row := by
    apply List.map_congr_left
    intro name mem
    rw [origin_append]
    exact cellNamed_map (has name mem) _
  refine ⟨frame', apply_snoc carried.done selected, ?_, ?_⟩
  · rw [under, names]
  · rw [rows, carried.rows, under, List.map_map, survivors]
    exact List.map_congr_left fun row _ => cells row

theorem filter {p : Predicate} (carried : Carried ops schema frame middle)
    (mentioned : ∀ column ∈ p.columns, schema.contains column = true)
    (sources : ∀ name ∈ schema.names, origin ops name ∈ frame.header) :
    ∃ frame', Carried (ops ++ [.filter p]) schema frame frame' := by
  have has (name : String) (mem : name ∈ p.columns) : name ∈ middle.header :=
    carried.header.mem_iff.2 (Schema.contains_iff.1 (mentioned name mem))
  obtain ⟨frame', filtered, under, rows⟩ := Frame.filter_eq has
  -- The filter acts on what is left of a row, and is accounted for on the row itself.
  have passes (row : List Value) (mem : row ∈ frame.rows) :
      p.passes middle.header (carry ops frame.header middle.header row) =
        (p.mapColumns (origin ops)).passes frame.header row := by
    symm
    apply Predicate.passes_mapColumns
    intro name mentioned
    have mem' := has name (List.mem_eraseDups.2 mentioned)
    have source := sources name (carried.header.mem_iff.1 mem')
    rw [Frame.cell?_of_mem (frame.rectangular row mem) source,
      Frame.cell?_of_mem (by simp [carry]) mem', carry, cellNamed_map mem']
  have cells : carry (ops ++ [.filter p]) = carry ops := by
    funext header names row
    simp only [carry, origin_append]
    rfl
  refine ⟨frame', apply_snoc carried.done filtered, under ▸ carried.header, ?_⟩
  rw [rows, carried.rows, under, cells, List.filter_map, List.filter_filter]
  congr 1
  apply List.filter_congr
  intro row mem
  simp [survives_append, filters, passes row mem, Bool.and_comm]

theorem rename {old new : String} (carried : Carried ops schema frame middle)
    (renamed : schema.rename old new = .ok schema') :
    ∃ frame', Carried (ops ++ [.rename old new]) schema' frame frame' := by
  obtain ⟨mem, names⟩ := Schema.names_of_rename renamed
  obtain ⟨-, free⟩ := Schema.free_of_rename renamed
  have distinct : middle.header.Nodup := carried.header.nodup_iff.2 schema.distinct
  obtain ⟨frame', done, under, rows⟩ := Frame.rename_eq new (carried.header.mem_iff.2 mem)
  rw [set_findIdx distinct] at under
  have survivors : survives (ops ++ [.rename old new]) = survives ops := by
    funext header row
    simp [survives_append, filters]
  -- The rows stay as they are: the new name comes from where the old one came from.
  have cells (row : List Value) :
      carry (ops ++ [.rename old new]) frame.header frame'.header row =
        carry ops frame.header middle.header row := by
    unfold carry
    rw [under, List.map_map]
    apply List.map_congr_left
    intro name mem
    obtain ⟨column, own, rfl⟩ := List.mem_map.1 (carried.header.mem_iff.1 mem)
    have same : origin [.rename old new] (newName old new column.name) = column.name :=
      FrameOperation.before_newName (free column own)
    simp only [Function.comp_apply, origin_append, same]
  refine ⟨frame', apply_snoc carried.done done, ?_, ?_⟩
  · rw [under, names]
    exact carried.header.map (newName old new)
  · rw [rows, carried.rows, survivors]
    exact List.map_congr_left fun row _ => (cells row).symm

end Carried

/-! ## Projections -/

theorem origin_mem_names (projects : Projects source ops schema) {name : String}
    (mem : name ∈ schema.names) : origin ops name ∈ source.names := by
  obtain ⟨column, own, rfl⟩ := List.mem_map.1 mem
  exact List.mem_map_of_mem (f := Column.name) (origin_mem projects column own)

/-- **`carried_of_projects`**: a projection carries every frame that has the columns of the schema. -/
theorem carried_of_projects (projects : Projects source ops schema)
    (own : frame.header.Perm source.names) : ∃ frame', Carried ops schema frame frame' := by
  induction projects with
  | done => exact ⟨frame, .nil own⟩
  | select before kept ih =>
    obtain ⟨middle, carried⟩ := ih
    exact carried.select kept
  | filter before mentioned ih =>
    obtain ⟨middle, carried⟩ := ih
    exact carried.filter mentioned fun name mem => own.mem_iff.2 (origin_mem_names before mem)
  | rename before renamed ih =>
    obtain ⟨middle, carried⟩ := ih
    exact carried.rename renamed

end PrivateQuery
