import PrivateQuery.Schema.Column

/-!
# Schemas

A schema is an ordered list of columns with distinct names. Selecting, renaming and replacing keep
the names distinct; each says exactly when it is refused.
-/
namespace PrivateQuery

inductive SchemaError where
  | unknownColumn (name : String)
  | duplicateColumn (name : String)
deriving DecidableEq, Repr

namespace SchemaError

def kind : SchemaError → String
  | unknownColumn _ => "UnknownColumn"
  | duplicateColumn _ => "DuplicateColumn"

def description : SchemaError → String
  | unknownColumn name => s!"column {name} is not in the schema"
  | duplicateColumn name => s!"column {name} appears more than once"

def message (e : SchemaError) : String := e.kind ++ ": " ++ e.description

end SchemaError

/-- The first item of a list that occurs before it. -/
def firstRepeated [DecidableEq α] : (seen items : List α) → Option α
  | _, [] => none
  | seen, item :: items => if item ∈ seen then some item else firstRepeated (item :: seen) items

theorem firstRepeated_eq_none_iff [DecidableEq α] {seen items : List α} :
    firstRepeated seen items = none ↔ items.Nodup ∧ ∀ item ∈ items, item ∉ seen := by
  induction items generalizing seen with
  | nil => simp [firstRepeated]
  | cons item items ih =>
    unfold firstRepeated
    split
    · rename_i h
      simp [h]
    · rename_i h
      rw [ih, List.nodup_cons]
      constructor
      · rintro ⟨nodup, new⟩
        refine ⟨⟨fun mem => new item mem List.mem_cons_self, nodup⟩, fun other mem => ?_⟩
        rcases List.mem_cons.1 mem with rfl | mem
        · exact h
        · exact fun old => new other mem (List.mem_cons_of_mem _ old)
      · rintro ⟨⟨notMem, nodup⟩, new⟩
        refine ⟨nodup, fun other mem old => ?_⟩
        rcases List.mem_cons.1 old with rfl | old
        · exact notMem mem
        · exact new other (List.mem_cons_of_mem _ mem) old

structure Schema where
  columns : List Column
  /-- No two columns have one name. -/
  distinct : (columns.map Column.name).Nodup

namespace Schema

def empty : Schema := ⟨[], List.nodup_nil⟩

/-- The schema with these columns, unless two have one name (`Schema.new`). -/
def ofColumns (columns : List Column) : Except SchemaError Schema :=
  match h : firstRepeated [] (columns.map Column.name) with
  | none => .ok ⟨columns, (firstRepeated_eq_none_iff.1 h).1⟩
  | some name => .error (.duplicateColumn name)

def names (s : Schema) : List String := s.columns.map Column.name

def contains (s : Schema) (name : String) : Bool := s.names.contains name

def find? (s : Schema) (name : String) : Option Column :=
  s.columns.find? fun column => column.name == name

def column (s : Schema) (name : String) : Except SchemaError Column :=
  match s.find? name with
  | some column => .ok column
  | none => .error (.unknownColumn name)

def position (s : Schema) (name : String) : Except SchemaError Nat :=
  match s.columns.findIdx? fun column => column.name == name with
  | some i => .ok i
  | none => .error (.unknownColumn name)

def typeOf (s : Schema) (name : String) : Except SchemaError ColumnType :=
  (s.column name).map Column.type

/-- Restrict to the given columns, in the given order. -/
def select (s : Schema) (names : List String) : Except SchemaError Schema := do
  ofColumns (← names.mapM s.column)

/-! ## New names -/

/-- A column under its new name, if it is the one renamed. -/
def renamed (old new : String) (column : Column) : Column :=
  if column.name = old then { column with name := new } else column

theorem names_map_renamed (old new : String) (columns : List Column) :
    (columns.map (renamed old new)).map Column.name =
      (columns.map Column.name).map fun name => if name = old then new else name := by
  simp only [List.map_map]
  apply List.map_congr_left
  intro column _
  simp only [Function.comp, renamed]
  split <;> rfl

theorem nodup_map_renamed {old new : String} {columns : List Column}
    (distinct : (columns.map Column.name).Nodup)
    (free : ∀ column ∈ columns, column.name = new → column.name = old) :
    ((columns.map (renamed old new)).map Column.name).Nodup := by
  rw [names_map_renamed]
  refine List.pairwise_map.2 (distinct.imp_of_mem fun {a b} ha hb hne => ?_)
  have keep (name : String) (h : name ∈ columns.map Column.name) (e : name = new) : name = old := by
    obtain ⟨column, mem, rfl⟩ := List.mem_map.1 h
    exact free column mem e
  split <;> rename_i hold <;> split <;> rename_i hold'
  · exact absurd (hold.trans hold'.symm) hne
  · exact fun e => hold' (keep b hb e.symm)
  · exact fun e => hold (keep a ha e)
  · exact hne

/-- Give a column a new name, which no other column may have (`Schema.rename`). -/
def rename (s : Schema) (old new : String) : Except SchemaError Schema :=
  if ¬ s.contains old then .error (.unknownColumn old)
  else if h : old ≠ new ∧ s.contains new then .error (.duplicateColumn new)
  else .ok ⟨s.columns.map (renamed old new), nodup_map_renamed s.distinct fun column mem e => by
    apply Decidable.byContradiction
    intro ne
    refine h ⟨fun same => ne (e.trans same.symm), ?_⟩
    exact List.contains_iff_mem.2 (e ▸ List.mem_map_of_mem mem)⟩

/-- Give a column a new name, dropping any other column that has it (`Schema.replace`). -/
def replace (s : Schema) (old new : String) : Except SchemaError Schema :=
  if ¬ s.contains old then .error (.unknownColumn old)
  else
    let kept := s.columns.filter fun column => column.name == old || column.name != new
    .ok ⟨kept.map (renamed old new), nodup_map_renamed
      (s.distinct.sublist (List.filter_sublist.map _)) fun column mem e => by
        have := (List.mem_filter.1 mem).2
        simpa [e] using this⟩

def toString (s : Schema) : String :=
  "\x7b" ++ ", ".intercalate (s.columns.map Column.toString) ++ "\x7d"

instance : ToString Schema := ⟨Schema.toString⟩

end Schema

end PrivateQuery
