import PrivateQuery.Proofs.Frame.Rowwise

/-!
# Where columns come from

Operations on a frame pass columns on, at most under other names. `origin` gives the name that a
column had before some operations, and `filters` their filters in terms of these names. On the schema,
operations keep the type of a column together with its origin (`origin_mem`), and no two columns have
one origin (`origin_injective`).
-/
namespace PrivateQuery

/-! ## Names -/

/-- What a name becomes when one column is renamed. -/
def newName (old new name : String) : String := if name = old then new else name

namespace FrameOperation

/-- The name before an operation of the column that has a name after it. -/
def before : FrameOperation → String → String
  | rename old new, name => if name = new then old else name
  | _, name => name

/-- A new name leads back to the old one, unless another column had it. -/
theorem before_newName {old new name : String} (free : name = new → name = old) :
    (rename old new).before (newName old new name) = name := by
  unfold before newName
  by_cases own : name = old
  · simp [own]
  · by_cases taken : name = new
    · exact absurd (free taken) own
    · simp [own, taken]

end FrameOperation

/-- The name before operations of the column that has a name after them. -/
def origin (ops : List FrameOperation) (name : String) : String :=
  ops.foldr FrameOperation.before name

theorem origin_append (ops more : List FrameOperation) (name : String) :
    origin (ops ++ more) name = origin ops (origin more name) := by
  simp [origin]

/-- A column before operations, given the column after them. -/
def Column.origin (ops : List FrameOperation) (column : Column) : Column :=
  { column with name := PrivateQuery.origin ops column.name }

/-! ## Filters -/

/-- A predicate on other columns. -/
def Predicate.mapColumns (f : String → String) : Predicate → Predicate
  | column name => column (f name)
  | literal v => literal v
  | unary op operand => unary op (operand.mapColumns f)
  | binary op left right => binary op (left.mapColumns f) (right.mapColumns f)

namespace Predicate

theorem mapColumns_id (p : Predicate) : p.mapColumns (fun name => name) = p := by
  induction p with
  | column name => rfl
  | literal v => rfl
  | unary op operand ih => simp [mapColumns, ih]
  | binary op left right ihl ihr => simp [mapColumns, ihl, ihr]

theorem mapColumns_mapColumns (f g : String → String) (p : Predicate) :
    (p.mapColumns g).mapColumns f = p.mapColumns fun name => f (g name) := by
  induction p with
  | column name => rfl
  | literal v => rfl
  | unary op operand ih => simp [mapColumns, ih]
  | binary op left right ihl ihr => simp [mapColumns, ihl, ihr]

section
variable {f : String → String} {header header' : List String} {row row' : List Value} {p : Predicate}

/-- A predicate depends on the cells under the names that it mentions. -/
theorem value_mapColumns
    (cells : ∀ column ∈ p.mentions, cell? header row (f column) = cell? header' row' column)
    (v : Value) : (p.mapColumns f).value header row = .ok v ↔ p.value header' row' = .ok v := by
  induction p generalizing v with
  | column name =>
    simp only [mapColumns, value, cells name (by simp [mentions])]
    cases cell? header' row' name <;> simp
  | literal other => rfl
  | unary op operand ih => simp only [mapColumns, value, bind_eq_ok, ih cells]
  | binary op left right ihl ihr =>
    have first := ihl fun c mem => cells c (List.mem_append_left _ mem)
    have second := ihr fun c mem => cells c (List.mem_append_right _ mem)
    simp only [mapColumns, value, bind_eq_ok, first, second]

theorem passes_mapColumns
    (cells : ∀ column ∈ p.mentions, cell? header row (f column) = cell? header' row' column) :
    (p.mapColumns f).passes header row = p.passes header' row' := by
  rw [Bool.eq_iff_iff, passes_iff, passes_iff]
  simp only [holds, bind_eq_ok, value_mapColumns cells]

end

end Predicate

/-- The filters among operations, in terms of the columns before all of the operations. -/
def filters : List FrameOperation → List Predicate
  | [] => []
  | .select _ :: ops => filters ops
  | .filter p :: ops => p :: filters ops
  | .rename old new :: ops =>
    (filters ops).map (Predicate.mapColumns (FrameOperation.rename old new).before)

theorem filters_append (ops more : List FrameOperation) :
    filters (ops ++ more) = filters ops ++ (filters more).map (Predicate.mapColumns (origin ops)) := by
  induction ops with
  | nil =>
    have same (p : Predicate) : p.mapColumns (origin []) = p := p.mapColumns_id
    rw [List.map_congr_left fun p _ => same p, List.map_id']
    rfl
  | cons op ops ih =>
    cases op with
    | select columns => exact ih
    | filter p => exact congrArg (p :: ·) ih
    | rename old new =>
      simp only [List.cons_append, filters, ih, List.map_append, List.map_map]
      congr 1
      apply List.map_congr_left
      intro p _
      exact Predicate.mapColumns_mapColumns _ _ p

/-! ## Schemas -/

namespace Schema

/-- A rename is of a column of the schema, to a name that no other column has. -/
theorem free_of_rename {s s' : Schema} {old new : String} (h : s.rename old new = .ok s') :
    s'.columns = s.columns.map (renamed old new) ∧
      ∀ column ∈ s.columns, column.name = new → column.name = old := by
  unfold rename at h
  split at h
  · simp at h
  · split at h
    · simp at h
    · rename_i free
      cases h
      refine ⟨rfl, ?_⟩
      intro column mem taken
      apply Decidable.byContradiction
      intro other
      refine free ⟨?_, contains_iff.2 (taken ▸ List.mem_map_of_mem mem)⟩
      exact fun same => other (taken.trans same.symm)

theorem renamed_eq (old new : String) (column : Column) :
    renamed old new column = { column with name := newName old new column.name } := by
  unfold renamed newName
  split <;> rfl

end Schema

/-- A renamed column comes from where the column before comes from. -/
theorem Column.origin_renamed {ops : List FrameOperation} {old new : String} {column : Column}
    (free : column.name = new → column.name = old) :
    (Schema.renamed old new column).origin (ops ++ [.rename old new]) = column.origin ops := by
  have same : PrivateQuery.origin [.rename old new] (newName old new column.name) = column.name :=
    FrameOperation.before_newName free
  simp [Schema.renamed_eq, Column.origin, origin_append, same]

variable {source schema : Schema} {ops : List FrameOperation}

/-- **`origin_mem`**: every column after operations comes from a column of the schema, with its
type. -/
theorem origin_mem (projects : Projects source ops schema) :
    ∀ column ∈ schema.columns, column.origin ops ∈ source.columns := by
  induction projects with
  | done =>
    intro column mem
    exact mem
  | @select ops schema schema' columns before kept ih =>
    intro column mem
    have same : column.origin (ops ++ [.select columns]) = column.origin ops := by
      unfold Column.origin
      rw [origin_append]
      rfl
    rw [same]
    exact ih column ((Schema.columns_of_select kept).2 column mem)
  | @filter ops schema p before own ih =>
    intro column mem
    have same : column.origin (ops ++ [.filter p]) = column.origin ops := by
      unfold Column.origin
      rw [origin_append]
      rfl
    rw [same]
    exact ih column mem
  | @rename ops schema schema' old new before renamed ih =>
    intro column mem
    obtain ⟨columns, free⟩ := Schema.free_of_rename renamed
    rw [columns, List.mem_map] at mem
    obtain ⟨column, mem, rfl⟩ := mem
    rw [Column.origin_renamed (free column mem)]
    exact ih column mem

/-- **`origin_injective`**: columns that come from one column are one. -/
theorem origin_injective (projects : Projects source ops schema) :
    ∀ a ∈ schema.columns, ∀ b ∈ schema.columns, a.origin ops = b.origin ops → a = b := by
  induction projects with
  | done =>
    intro a _ b _ same
    exact same
  | @select ops schema schema' columns before kept ih =>
    intro a memA b memB same
    simp only [Column.origin, origin_append] at same
    exact ih a ((Schema.columns_of_select kept).2 a memA) b ((Schema.columns_of_select kept).2 b memB) same
  | @filter ops schema p before own ih =>
    intro a memA b memB same
    simp only [Column.origin, origin_append] at same
    exact ih a memA b memB same
  | @rename ops schema schema' old new before renamed ih =>
    intro a memA b memB same
    obtain ⟨columns, free⟩ := Schema.free_of_rename renamed
    rw [columns, List.mem_map] at memA memB
    obtain ⟨a, memA, rfl⟩ := memA
    obtain ⟨b, memB, rfl⟩ := memB
    rw [Column.origin_renamed (free a memA), Column.origin_renamed (free b memB)] at same
    rw [ih a memA b memB same]

end PrivateQuery
