import PrivateQuery.Proofs.Frame.Operations
import PrivateQuery.Proofs.Pipeline.Construction
import Mathlib.Data.List.Nodup

/-!
# Operations act row by row

What a pipeline does to a frame before it measures depends on the header alone and treats each row by
itself: a row gives one row or none, whatever other rows there are (`Rowwise`). This holds of each
operation on a frame whose header has the columns the operation uses, and of every projection that
leads from one schema to another (`rowwise_projects`).
-/
namespace PrivateQuery

/-- Operations that turn each row under a header into at most one row under another. -/
def Rowwise (ops : List FrameOperation) (header header' : List String) : Prop :=
  ∃ f : List Value → Option (List Value), ∀ frame : Frame, frame.header = header →
    ∃ frame', ops.foldlM FrameOperation.apply frame = .ok frame' ∧ frame'.header = header' ∧
      frame'.rows = frame.rows.filterMap f

variable {header header' header'' : List String}

theorem apply_snoc {ops : List FrameOperation} {op : FrameOperation} {frame middle frame' : Frame}
    (done : ops.foldlM FrameOperation.apply frame = .ok middle) (next : op.apply middle = .ok frame') :
    (ops ++ [op]).foldlM FrameOperation.apply frame = .ok frame' := by
  rw [List.foldlM_append, done]
  change [op].foldlM FrameOperation.apply middle = .ok frame'
  simp [next]

theorem Rowwise.nil : Rowwise [] header header :=
  ⟨some, fun frame same => ⟨frame, rfl, same, by simp⟩⟩

theorem Rowwise.snoc {ops : List FrameOperation} {op : FrameOperation}
    (first : Rowwise ops header header') (last : Rowwise [op] header' header'') :
    Rowwise (ops ++ [op]) header header'' := by
  obtain ⟨f, hf⟩ := first
  obtain ⟨g, hg⟩ := last
  refine ⟨fun row => (f row).bind g, fun frame same => ?_⟩
  obtain ⟨middle, done, under, rows⟩ := hf frame same
  obtain ⟨frame', done', under', rows'⟩ := hg middle under
  refine ⟨frame', ?_, under', ?_⟩
  · rw [List.foldlM_append, done]
    exact done'
  · rw [rows', rows, List.filterMap_filterMap]

/-! ## Operations -/

theorem rowwise_select {columns : List String} (sub : ∀ name ∈ columns, name ∈ header) :
    Rowwise [.select columns] header columns := by
  refine ⟨fun row => some (columns.map (cellNamed header row)), fun frame same => ?_⟩
  subst same
  obtain ⟨frame', done, under, rows⟩ := Frame.select_eq sub
  refine ⟨frame', by simp [FrameOperation.apply, done], under, ?_⟩
  rw [rows]
  exact (congrFun List.filterMap_eq_map frame.rows).symm

theorem rowwise_filter {p : Predicate} (own : ∀ column ∈ p.columns, column ∈ header) :
    Rowwise [.filter p] header header := by
  refine ⟨Option.guard (p.passes header), fun frame same => ?_⟩
  subst same
  obtain ⟨frame', done, under, rows⟩ := Frame.filter_eq own
  refine ⟨frame', by simp [FrameOperation.apply, done], under, ?_⟩
  rw [rows, List.filterMap_eq_filter]

theorem rowwise_rename {old : String} (new : String) (own : old ∈ header) :
    Rowwise [.rename old new] header (header.set (header.findIdx (· == old)) new) := by
  refine ⟨some, fun frame same => ?_⟩
  subst same
  obtain ⟨frame', done, under, rows⟩ := Frame.rename_eq new own
  exact ⟨frame', by simp [FrameOperation.apply, done], under, by simp [rows]⟩

/-- A name that is not given up is still in the header after a rename, and the new one is. -/
theorem mem_set_findIdx {old new name : String} (own : old ∈ header) (mem : name ∈ header) :
    (if name = old then new else name) ∈ header.set (header.findIdx (· == old)) new := by
  have bound := Frame.findIdx_lt_of_mem own
  split
  · exact List.mem_set bound new
  · rename_i other
    obtain ⟨j, inside, rfl⟩ := List.getElem_of_mem mem
    have apart : header.findIdx (· == old) ≠ j := by
      rintro rfl
      exact other (beq_iff_eq.1 (List.findIdx_getElem (w := bound)))
    refine List.mem_of_getElem (i := j) (h := by simpa using inside) ?_
    rw [List.getElem_set_ne apart]

/-! ## Schemas -/

namespace Schema

theorem contains_iff {s : Schema} {name : String} : s.contains name = true ↔ name ∈ s.names := by
  simp [contains]

theorem ofColumns_of_distinct {columns : List Column} (distinct : (columns.map Column.name).Nodup) :
    ofColumns columns = .ok ⟨columns, distinct⟩ := by
  have fresh : firstRepeated [] (columns.map Column.name) = none :=
    firstRepeated_eq_none_iff.2 ⟨distinct, by simp⟩
  unfold ofColumns
  split
  · rfl
  · rename_i repeated
    simp [fresh] at repeated

theorem column_eq_ok_iff {s : Schema} {name : String} {column : Column} :
    s.column name = .ok column ↔ column ∈ s.columns ∧ column.name = name := by
  unfold Schema.column find?
  constructor
  · intro h
    split at h
    · rename_i found at_
      cases h
      have named := List.find?_some at_
      rw [beq_iff_eq] at named
      exact ⟨List.mem_of_find?_eq_some at_, named⟩
    · simp at h
  · rintro ⟨mem, rfl⟩
    split
    · rename_i found at_
      have named := List.find?_some at_
      rw [beq_iff_eq] at named
      rw [List.inj_on_of_nodup_map s.distinct (List.mem_of_find?_eq_some at_) mem named]
    · rename_i none
      simpa using List.find?_eq_none.1 none column mem

theorem typeOf_eq_ok_iff {s : Schema} {name : String} {type : ColumnType} :
    s.typeOf name = .ok type ↔ (⟨name, type⟩ : Column) ∈ s.columns := by
  rw [typeOf, map_eq_ok]
  constructor
  · rintro ⟨column, found, rfl⟩
    obtain ⟨mem, rfl⟩ := column_eq_ok_iff.1 found
    exact mem
  · intro mem
    exact ⟨⟨name, type⟩, column_eq_ok_iff.2 ⟨mem, rfl⟩, rfl⟩

theorem mem_names_of_typeOf {s : Schema} {name : String} {type : ColumnType}
    (h : s.typeOf name = .ok type) : name ∈ s.names :=
  List.mem_map_of_mem (typeOf_eq_ok_iff.1 h)

theorem columns_of_mapM {s : Schema} {names : List String} {columns : List Column}
    (h : names.mapM s.column = .ok columns) :
    columns.map Column.name = names ∧ ∀ column ∈ columns, column ∈ s.columns := by
  induction names generalizing columns with
  | nil =>
    cases h
    simp
  | cons name names ih =>
    obtain ⟨column, rest, found, looked, rfl⟩ := mapM_cons_eq_ok.1 h
    obtain ⟨same, sub⟩ := ih looked
    obtain ⟨own, named⟩ := column_eq_ok_iff.1 found
    refine ⟨by simp [named, same], fun other mem => ?_⟩
    rcases List.mem_cons.1 mem with rfl | mem
    · exact own
    · exact sub other mem

theorem columns_of_select {s s' : Schema} {columns : List String}
    (h : s.select columns = .ok s') :
    s'.names = columns ∧ ∀ column ∈ s'.columns, column ∈ s.columns := by
  obtain ⟨found, looked, h⟩ := bind_eq_ok.1 h
  unfold ofColumns at h
  split at h
  · cases h
    exact columns_of_mapM looked
  · simp at h

theorem names_of_select {s s' : Schema} {columns : List String}
    (h : s.select columns = .ok s') : s'.names = columns ∧ ∀ name ∈ columns, name ∈ s.names := by
  obtain ⟨rfl, sub⟩ := columns_of_select h
  refine ⟨rfl, fun name mem => ?_⟩
  obtain ⟨column, own, rfl⟩ := List.mem_map.1 mem
  exact List.mem_map_of_mem (sub column own)

theorem names_of_rename {s s' : Schema} {old new : String} (h : s.rename old new = .ok s') :
    old ∈ s.names ∧ s'.names = s.names.map fun name => if name = old then new else name := by
  unfold rename at h
  split at h
  · simp at h
  · rename_i own
    split at h
    · simp at h
    · cases h
      exact ⟨contains_iff.1 (by simpa using own), names_map_renamed old new s.columns⟩

end Schema

/-! ## Projections -/

/-- **`rowwise_projects`**: a projection from a schema acts row by row on every frame that has the
columns of the schema, and leaves the columns of the working schema. -/
theorem rowwise_projects {source schema : Schema} {ops : List FrameOperation}
    (projects : Projects source ops schema) (covers : ∀ name ∈ source.names, name ∈ header) :
    ∃ header', (∀ name ∈ schema.names, name ∈ header') ∧ Rowwise ops header header' := by
  induction projects with
  | done => exact ⟨header, covers, .nil⟩
  | @select ops schema schema' columns before kept ih =>
    obtain ⟨header', covers', rowwise⟩ := ih
    obtain ⟨names, sub⟩ := Schema.names_of_select kept
    refine ⟨columns, by simp [names], rowwise.snoc (rowwise_select ?_)⟩
    exact fun name mem => covers' name (sub name mem)
  | @filter ops schema p before own ih =>
    obtain ⟨header', covers', rowwise⟩ := ih
    refine ⟨header', covers', rowwise.snoc (rowwise_filter ?_)⟩
    exact fun column mem => covers' column (Schema.contains_iff.1 (own column mem))
  | @rename ops schema schema' old new before renamed ih =>
    obtain ⟨header', covers', rowwise⟩ := ih
    obtain ⟨own, names⟩ := Schema.names_of_rename renamed
    refine ⟨header'.set (header'.findIdx (· == old)) new, fun name mem => ?_,
      rowwise.snoc (rowwise_rename new (covers' old own))⟩
    rw [names, List.mem_map] at mem
    obtain ⟨name, mem, rfl⟩ := mem
    exact mem_set_findIdx (covers' old own) (covers' name mem)

end PrivateQuery
