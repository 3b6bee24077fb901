import Mathlib.Data.List.InsertIdx
import PrivateQuery.Proofs.Pipeline.Label

/-!
# Columns by position

A schema finds a column under its name at the position where it stands (`position_name`), so what a
new name does can be told by positions: the column that gets it keeps its place, and where another
column has to give the name up it is that one column that goes (`columns_of_taken`). Each operation on a
schema leaves columns that stem from different columns before it, with their types (`Stems`).
-/
namespace PrivateQuery

/-- The columns of a list stem from different columns of another one, of the same types. -/
def Stems (later earlier : List Column) : Prop :=
  ∃ origin : Fin later.length → Fin earlier.length, Function.Injective origin ∧
    ∀ i, (later.get i).type = (earlier.get (origin i)).type

namespace Stems

variable {later middle earlier : List Column}

theorem refl (columns : List Column) : Stems columns columns :=
  ⟨id, Function.injective_id, fun _ => rfl⟩

theorem trans (last : Stems later middle) (first : Stems middle earlier) : Stems later earlier := by
  obtain ⟨origin, injective, types⟩ := last
  obtain ⟨origin', injective', types'⟩ := first
  exact ⟨origin' ∘ origin, injective'.comp injective, fun i => (types i).trans (types' (origin i))⟩

theorem map {f : Column → Column} (kept : ∀ column, (f column).type = column.type)
    (columns : List Column) : Stems (columns.map f) columns :=
  ⟨Fin.cast (List.length_map f), fun _ _ same => by simpa [Fin.ext_iff] using same,
    fun i => by simp [kept]⟩

/-- Different columns of a list, in any order. -/
theorem of_subset (sub : ∀ column ∈ later, column ∈ earlier) (nodup : later.Nodup) :
    Stems later earlier := by
  have each (i : Fin later.length) : ∃ j : Fin earlier.length, earlier.get j = later.get i :=
    List.mem_iff_get.1 (sub _ (List.get_mem later i))
  choose origin found using each
  refine ⟨origin, fun i j same => nodup.injective_get ?_, fun i => by rw [found]⟩
  rw [← found i, ← found j, same]

end Stems

namespace Schema

variable {s s' : Schema} {old new : String}

/-- No column occurs twice. -/
theorem nodup_columns (s : Schema) : s.columns.Nodup := s.distinct.of_map _

theorem position_name (s : Schema) {i : ℕ} (h : i < s.columns.length) :
    s.position s.columns[i].name = .ok i := by
  have first : s.columns.findIdx? (fun column => column.name == s.columns[i].name) = some i := by
    refine List.findIdx?_eq_some_iff_getElem.2 ⟨h, beq_self_eq_true _, fun j less same => ?_⟩
    have names := List.pairwise_iff_getElem.1 (List.pairwise_map.1 s.distinct) j i (by omega) h less
    exact names (beq_iff_eq.1 same)
  rw [position, first]

/-! ## New names by position -/

section
variable {columns : List Column} {type other : ColumnType} {i j : ℕ}

theorem renamed_of_ne {column : Column} (ne : column.name ≠ old) : renamed old new column = column :=
  if_neg ne

theorem map_renamed_eq_set (distinct : (columns.map Column.name).Nodup)
    (here : columns[i]? = some ⟨old, type⟩) :
    columns.map (renamed old new) = columns.set i ⟨new, type⟩ := by
  induction columns generalizing i with
  | nil => simp at here
  | cons column rest ih =>
    obtain ⟨apart, distinct⟩ := List.nodup_cons.1 distinct
    cases i with
    | zero =>
      obtain rfl : column = ⟨old, type⟩ := by simpa using here
      have kept : rest.map (renamed old new) = rest.map id := by
        refine List.map_congr_left fun column mem => renamed_of_ne ?_
        exact fun same => apart (List.mem_map.2 ⟨column, mem, same⟩)
      simp [renamed, kept]
    | succ i =>
      have there : rest[i]? = some ⟨old, type⟩ := by simpa using here
      have ne : column.name ≠ old := fun same =>
        apart (same ▸ List.mem_map.2 ⟨_, List.mem_of_getElem? there, rfl⟩)
      rw [List.map_cons, ih distinct there, renamed_of_ne ne, List.set_cons_succ]

theorem filter_ne_eq_eraseIdx (distinct : (columns.map Column.name).Nodup)
    (here : columns[j]? = some ⟨new, other⟩) :
    (columns.filter fun column => column.name != new) = columns.eraseIdx j := by
  induction columns generalizing j with
  | nil => simp at here
  | cons column rest ih =>
    obtain ⟨apart, distinct⟩ := List.nodup_cons.1 distinct
    cases j with
    | zero =>
      obtain rfl : column = ⟨new, other⟩ := by simpa using here
      rw [List.filter_cons_of_neg (by simp), List.eraseIdx_cons_zero, List.filter_eq_self]
      intro column mem
      exact bne_iff_ne.2 fun same => apart (List.mem_map.2 ⟨column, mem, same⟩)
    | succ j =>
      have there : rest[j]? = some ⟨new, other⟩ := by simpa using here
      have ne : column.name ≠ new := fun same =>
        apart (same ▸ List.mem_map.2 ⟨_, List.mem_of_getElem? there, rfl⟩)
      rw [List.filter_cons_of_pos (by simpa using ne), ih distinct there, List.eraseIdx_cons_succ]

end

theorem exists_getElem? {name : String} (own : name ∈ s.names) :
    ∃ (i : ℕ) (type : ColumnType), s.columns[i]? = some ⟨name, type⟩ := by
  obtain ⟨⟨_, type⟩, mem, rfl⟩ := List.mem_map.1 own
  obtain ⟨i, here⟩ := List.mem_iff_getElem?.1 mem
  exact ⟨i, type, here⟩

theorem columns_of_rename (h : s.rename old new = .ok s') :
    ∃ (i : ℕ) (type : ColumnType), s.columns[i]? = some ⟨old, type⟩ ∧
      s'.columns = s.columns.set i ⟨new, type⟩ := by
  obtain ⟨i, type, here⟩ := exists_getElem? (names_of_rename h).1
  exact ⟨i, type, here, (free_of_rename h).1.trans (map_renamed_eq_set s.distinct here)⟩

/-- A replacement is refused only where no column has the old name. -/
theorem replace_eq_error_iff {e : SchemaError} :
    s.replace old new = .error e ↔ old ∉ s.names ∧ e = .unknownColumn old := by
  rw [← contains_iff]
  by_cases own : s.contains old = true
  · simp [replace, own]
  · simp [replace, own, eq_comm]

/-- Where a column can be renamed, a replacement does the same. -/
theorem replace_of_rename (h : s.rename old new = .ok s') : s.replace old new = .ok s' := by
  obtain ⟨columns, free⟩ := free_of_rename h
  cases replaced : s.replace old new with
  | error e => exact absurd (names_of_rename h).1 (replace_eq_error_iff.1 replaced).1
  | ok replacement =>
    have all : (s.columns.filter fun column => column.name == old || column.name != new) =
        s.columns := by
      refine List.filter_eq_self.2 fun column mem => ?_
      by_cases taken : column.name = new
      · simp [free column mem taken]
      · simp [taken]
    have same := (columns_of_replace replaced).2
    rw [all, ← columns] at same
    cases s'
    cases replacement
    simpa using same

/-- What cannot be renamed for another column that has the new name is replaced by it: the renamed column
keeps its place, the other one goes, and the rest stay in order. -/
theorem columns_of_taken (h : s.replace old new = .ok s')
    (refused : ∀ renamed, s.rename old new ≠ .ok renamed) :
    ∃ (i j : ℕ) (type other : ColumnType), i ≠ j ∧ s.columns[i]? = some ⟨old, type⟩ ∧
      s.columns[j]? = some ⟨new, other⟩ ∧ s'.columns = (s.columns.set i ⟨new, type⟩).eraseIdx j := by
  obtain ⟨own, columns⟩ := columns_of_replace h
  obtain ⟨ne, taken⟩ : old ≠ new ∧ new ∈ s.names := by
    by_contra free
    rw [← contains_iff] at free
    exact refused _ (by rw [rename, if_neg (by simp [contains_iff.2 own]), dif_neg free])
  obtain ⟨i, type, here⟩ := exists_getElem? own
  obtain ⟨j, other, there⟩ := exists_getElem? taken
  refine ⟨i, j, type, other, ?_, here, there, ?_⟩
  · rintro rfl
    rw [here, Option.some.injEq, Column.mk.injEq] at there
    exact ne there.1
  · -- The renamed column has no special place in the filter, as its old name is not the new one.
    have kept : (s.columns.filter fun column => column.name == old || column.name != new) =
        s.columns.filter fun column => column.name != new := by
      refine List.filter_congr fun column _ => ?_
      by_cases same : column.name = old
      · simp [same, ne]
      · simp [same]
    rw [columns, kept, filter_ne_eq_eraseIdx s.distinct there, ← List.eraseIdx_map,
      map_renamed_eq_set s.distinct here]

/-! ## Where columns come from -/

theorem type_renamed (old new : String) (column : Column) :
    (renamed old new column).type = column.type := by
  rw [renamed_eq]

theorem stems_of_select {columns : List String} (h : s.select columns = .ok s') :
    Stems s'.columns s.columns :=
  .of_subset (columns_of_select h).2 s'.nodup_columns

theorem stems_of_rename (h : s.rename old new = .ok s') : Stems s'.columns s.columns := by
  rw [(free_of_rename h).1]
  exact .map (type_renamed old new) _

theorem stems_of_replace (h : s.replace old new = .ok s') : Stems s'.columns s.columns := by
  rw [(columns_of_replace h).2]
  refine (Stems.map (type_renamed old new) _).trans (.of_subset ?_ (s.nodup_columns.filter _))
  exact fun column mem => List.mem_of_mem_filter mem

/-- New names one after the other, before a measure or after it. -/
theorem stems_of_renameAll {stage : Stage} {entries : List (String × String)}
    (h : Transition.renameAll stage entries s = .ok s') : Stems s'.columns s.columns := by
  induction entries generalizing s with
  | nil =>
    cases h
    exact .refl _
  | cons e entries ih =>
    simp only [Transition.renameAll, List.foldlM_cons, bind_eq_ok] at h
    obtain ⟨middle, first, rest⟩ := h
    refine (ih rest).trans ?_
    split at first
    · exact stems_of_replace first
    · exact stems_of_rename first

end Schema

end PrivateQuery
