import PrivateQuery.Proofs.Frame.Origin
import Mathlib.Data.List.Forall2

/-!
# What a projection reads

A projection looks columns up by the names of the schema and by the new names that it gives to them,
each in the first column that has it. So two frames that agree in the columns of all these names
(`Frame.AgreeOn`) are projected alike (`alike_of_projects`): what is left of them agrees in every
column of the working schema. The first selection drops all other columns.
-/
namespace PrivateQuery

/-! ## Agreement -/

/-- Two rows have the same cells in all columns of some names. -/
def RowsAgree (names header : List String) (row row' : List Value) : Prop :=
  ∀ i, (inside : i < header.length) → header[i] ∈ names → row[i]? = row'[i]?

namespace Frame

/-- Two frames have one header, and row by row the same cells in all columns of some names. -/
structure AgreeOn (names : List String) (f f' : Frame) : Prop where
  header : f'.header = f.header
  rows : List.Forall₂ (RowsAgree names f.header) f.rows f'.rows

theorem eq_of_rows {f f' : Frame} (header : f.header = f'.header) (rows : f.rows = f'.rows) :
    f = f' := by
  cases f
  cases f'
  cases header
  cases rows
  rfl

end Frame

section
variable {names header : List String} {row row' : List Value}

theorem RowsAgree.cell? (agree : RowsAgree names header row row') {name : String}
    (mem : name ∈ names) : Predicate.cell? header row name = Predicate.cell? header row' name := by
  unfold Predicate.cell?
  cases found : header.findIdx? (· == name) with
  | none => rfl
  | some i =>
    obtain ⟨inside, here, -⟩ := List.findIdx?_eq_some_iff_getElem.1 found
    rw [beq_iff_eq] at here
    exact agree i inside (here ▸ mem)

theorem RowsAgree.cellNamed (agree : RowsAgree names header row row') {name : String}
    (mem : name ∈ names) : cellNamed header row name = cellNamed header row' name := by
  unfold PrivateQuery.cellNamed
  rw [agree.cell? mem]

theorem RowsAgree.passes (agree : RowsAgree names header row row') {p : Predicate}
    (own : ∀ column ∈ p.mentions, column ∈ names) : p.passes header row = p.passes header row' := by
  have same : (p.mapColumns fun name => name).passes header row = p.passes header row' :=
    Predicate.passes_mapColumns fun column mentioned => agree.cell? (own column mentioned)
  rwa [p.mapColumns_id] at same

/-- After a rename of a column in which rows agree they agree in it under the new name. -/
theorem RowsAgree.set (agree : RowsAgree names header row row') {old : String} (mem : old ∈ names)
    (own : old ∈ header) (new : String) :
    RowsAgree names (header.set (header.findIdx (· == old)) new) row row' := by
  intro i inside named
  rw [List.length_set] at inside
  by_cases here : header.findIdx (· == old) = i
  · have same : header[i] = old := by
      subst here
      exact beq_iff_eq.1 (List.findIdx_getElem (w := Frame.findIdx_lt_of_mem own))
    exact agree i inside (same ▸ mem)
  · rw [List.getElem_set_ne here] at named
    exact agree i inside named

end

theorem map_eq_of_forall₂ {α β : Type} {r : α → α → Prop} {f : α → β} {l l' : List α}
    (related : List.Forall₂ r l l') (same : ∀ a b, r a b → f a = f b) : l.map f = l'.map f := by
  induction related with
  | nil => rfl
  | cons first rest ih => rw [List.map_cons, List.map_cons, same _ _ first, ih]

namespace Frame.AgreeOn

variable {names : List String} {f f' : Frame}

theorem column (agree : f.AgreeOn names f') {name : String} (mem : name ∈ names)
    (own : name ∈ f.header) : f'.column name = f.column name := by
  rw [column_eq own, column_eq (agree.header ▸ own), agree.header]
  exact congrArg _ (map_eq_of_forall₂ agree.rows fun row row' rows => rows.cellNamed mem).symm

/-- A selection of columns in which frames agree leaves one frame. -/
theorem select (agree : f.AgreeOn names f') {columns : List String}
    (known : ∀ name ∈ columns, name ∈ names) (own : ∀ name ∈ columns, name ∈ f.header) :
    ∃ g, f.select columns = .ok g ∧ f'.select columns = .ok g ∧ g.header = columns := by
  have own' : ∀ name ∈ columns, name ∈ f'.header := agree.header ▸ own
  obtain ⟨g, done, header, rows⟩ := select_eq own
  obtain ⟨g', done', header', rows'⟩ := select_eq own'
  have cells : f.rows.map (fun row => columns.map (cellNamed f.header row)) =
      f'.rows.map fun row => columns.map (cellNamed f.header row) := by
    apply map_eq_of_forall₂ agree.rows
    intro row row' rows
    apply List.map_congr_left
    intro name mem
    exact rows.cellNamed (known name mem)
  have same : g = g' := by
    apply eq_of_rows (header.trans header'.symm)
    rw [rows, rows', agree.header, cells]
  exact ⟨g, done, same ▸ done', header⟩

theorem filter (agree : f.AgreeOn names f') {p : Predicate}
    (known : ∀ column ∈ p.columns, column ∈ names) (own : ∀ column ∈ p.columns, column ∈ f.header) :
    ∃ g g', f.filter p = .ok g ∧ f'.filter p = .ok g' ∧ g.header = f.header ∧ g.AgreeOn names g' := by
  have own' : ∀ column ∈ p.columns, column ∈ f'.header := agree.header ▸ own
  obtain ⟨g, done, header, rows⟩ := filter_eq own
  obtain ⟨g', done', header', rows'⟩ := filter_eq own'
  have passes (row row' : List Value) (same : RowsAgree names f.header row row') :
      p.passes f.header row = true ↔ p.passes f.header row' = true := by
    rw [same.passes fun column mem => known column (List.mem_eraseDups.2 mem)]
  refine ⟨g, g', done, done', header, by rw [header', header, agree.header], ?_⟩
  rw [header, rows, rows', agree.header]
  exact List.rel_filter passes agree.rows

theorem rename (agree : f.AgreeOn names f') {old : String} (new : String) (known : old ∈ names)
    (own : old ∈ f.header) :
    ∃ g g', f.rename old new = .ok g ∧ f'.rename old new = .ok g' ∧
      g.header = f.header.set (f.header.findIdx (· == old)) new ∧ g.AgreeOn names g' := by
  obtain ⟨g, done, header, rows⟩ := rename_eq new own
  obtain ⟨g', done', header', rows'⟩ := rename_eq new (agree.header ▸ own : old ∈ f'.header)
  refine ⟨g, g', done, done', header, by rw [header', header, agree.header], ?_⟩
  rw [header, rows, rows']
  exact agree.rows.imp fun row row' same => same.set known own new

end Frame.AgreeOn

/-! ## Projections -/

/-- The new names that are given before the first selection. -/
def introduced : List FrameOperation → List String
  | [] => []
  | .select _ :: _ => []
  | .filter _ :: ops => introduced ops
  | .rename _ new :: ops => new :: introduced ops

/-- Whether no column has been dropped. -/
def keepsColumns (ops : List FrameOperation) : Bool :=
  ops.all fun op => match op with
    | .select _ => false
    | _ => true

/-- What is left of two frames: one frame, or, as long as no column has been dropped, two that agree
in the columns of the names that a schema has now and may have later. -/
inductive Alike (names : List String) (ops : List FrameOperation) (schema : Schema) :
    Frame → Frame → Prop where
  | same {f : Frame} (covers : ∀ name ∈ schema.names, name ∈ f.header) : Alike names ops schema f f
  | agree {f f' : Frame} (covers : ∀ name ∈ schema.names, name ∈ f.header)
      (kept : keepsColumns ops = true) (known : ∀ name ∈ schema.names, name ∈ names)
      (agree : f.AgreeOn names f') : Alike names ops schema f f'

theorem introduced_append (ops more : List FrameOperation) :
    introduced (ops ++ more) =
      introduced ops ++ if keepsColumns ops = true then introduced more else [] := by
  induction ops with
  | nil => rfl
  | cons op ops ih =>
    cases op with
    | select columns => simp [introduced, keepsColumns]
    | filter p => simpa [introduced, keepsColumns] using ih
    | rename old new => simpa [introduced, keepsColumns] using ih

namespace Alike

variable {names : List String} {ops : List FrameOperation} {schema schema' : Schema} {f f' : Frame}

theorem column (alike : Alike names ops schema f f') {name : String} (mem : name ∈ schema.names) :
    f'.column name = f.column name := by
  cases alike with
  | same covers => rfl
  | agree covers kept known agree => exact agree.column (known name mem) (covers name mem)

/-- Two frames are one once columns have been selected. -/
theorem select (alike : Alike names ops schema f f') {columns : List String}
    (selected : schema.select columns = .ok schema') :
    ∃ g g', f.select columns = .ok g ∧ f'.select columns = .ok g' ∧
      Alike names (ops ++ [.select columns]) schema' g g' := by
  obtain ⟨same, sub⟩ := Schema.names_of_select selected
  cases alike with
  | same covers =>
    obtain ⟨g, done, header, -⟩ := Frame.select_eq fun name mem => covers name (sub name mem)
    exact ⟨g, g, done, done, .same (by simp [same, header])⟩
  | agree covers kept known agree =>
    obtain ⟨g, done, done', header⟩ := agree.select (fun name mem => known name (sub name mem))
      fun name mem => covers name (sub name mem)
    exact ⟨g, g, done, done', .same (by simp [same, header])⟩

theorem filter (alike : Alike names ops schema f f') {p : Predicate}
    (own : ∀ column ∈ p.columns, schema.contains column = true) :
    ∃ g g', f.filter p = .ok g ∧ f'.filter p = .ok g' ∧
      Alike names (ops ++ [.filter p]) schema g g' := by
  have mem := fun column used => Schema.contains_iff.1 (own column used)
  cases alike with
  | same covers =>
    obtain ⟨g, done, header, -⟩ := Frame.filter_eq fun column used => covers column (mem column used)
    exact ⟨g, g, done, done, .same (header ▸ covers)⟩
  | agree covers kept known agree =>
    obtain ⟨g, g', done, done', header, agree⟩ := agree.filter
      (fun column used => known column (mem column used))
      fun column used => covers column (mem column used)
    exact ⟨g, g', done, done', .agree (header ▸ covers) (by simpa [keepsColumns] using kept) known agree⟩

/-- A new name must be known, or else no column is left that had it before. -/
theorem rename (alike : Alike names ops schema f f') {old new : String}
    (renamed : schema.rename old new = .ok schema') (fresh : keepsColumns ops = true → new ∈ names) :
    ∃ g g', f.rename old new = .ok g ∧ f'.rename old new = .ok g' ∧
      Alike names (ops ++ [.rename old new]) schema' g g' := by
  obtain ⟨own, same⟩ := Schema.names_of_rename renamed
  have covered (covers : ∀ name ∈ schema.names, name ∈ f.header) :
      ∀ name ∈ schema'.names, name ∈ f.header.set (f.header.findIdx (· == old)) new := by
    intro name mem
    rw [same, List.mem_map] at mem
    obtain ⟨name, mem, rfl⟩ := mem
    exact mem_set_findIdx (covers old own) (covers name mem)
  cases alike with
  | same covers =>
    obtain ⟨g, done, header, -⟩ := Frame.rename_eq new (covers old own)
    exact ⟨g, g, done, done, .same (header ▸ covered covers)⟩
  | agree covers kept known agree =>
    obtain ⟨g, g', done, done', header, agree⟩ := agree.rename new (known old own) (covers old own)
    refine ⟨g, g', done, done', .agree (header ▸ covered covers) ?_ ?_ agree⟩
    · simpa [keepsColumns] using kept
    · -- A foreign column may have the new name, so the frames must agree in its columns too.
      intro name mem
      rw [same, List.mem_map] at mem
      obtain ⟨name, mem, rfl⟩ := mem
      split
      · exact fresh kept
      · exact known name mem

end Alike

/-- **`alike_of_projects`**: a projection leaves two frames alike that agree in the columns of all
names that it reads. -/
theorem alike_of_projects {source schema : Schema} {ops : List FrameOperation} {names : List String}
    {f f' : Frame} (projects : Projects source ops schema)
    (covers : ∀ name ∈ source.names, name ∈ f.header) (agree : f.AgreeOn names f')
    (known : ∀ name ∈ source.names, name ∈ names) (fresh : ∀ name ∈ introduced ops, name ∈ names) :
    ∃ g g', ops.foldlM FrameOperation.apply f = .ok g ∧
      ops.foldlM FrameOperation.apply f' = .ok g' ∧ Alike names ops schema g g' := by
  induction projects with
  | done => exact ⟨f, f', rfl, rfl, .agree covers rfl known agree⟩
  | select before selected ih =>
    obtain ⟨m, m', done, done', alike⟩ := ih fun name mem =>
      fresh name (by simp [introduced_append, mem])
    obtain ⟨g, g', next, next', alike⟩ := alike.select selected
    exact ⟨g, g', apply_snoc done next, apply_snoc done' next', alike⟩
  | filter before own ih =>
    obtain ⟨m, m', done, done', alike⟩ := ih fun name mem =>
      fresh name (by simp [introduced_append, mem])
    obtain ⟨g, g', next, next', alike⟩ := alike.filter own
    exact ⟨g, g', apply_snoc done next, apply_snoc done' next', alike⟩
  | rename before renamed ih =>
    obtain ⟨m, m', done, done', alike⟩ := ih fun name mem =>
      fresh name (by simp [introduced_append, mem])
    obtain ⟨g, g', next, next', alike⟩ := alike.rename renamed fun kept =>
      fresh _ (by simp [introduced_append, kept, introduced])
    exact ⟨g, g', apply_snoc done next, apply_snoc done' next', alike⟩

end PrivateQuery
