import PrivateQuery.Pipeline.Basic
import PrivateQuery.Proofs.Outcome

/-!
# Operations on frames that have the columns

On a frame whose header has the columns that an operation uses, the operation succeeds: a selection
reads the cells under the names of its columns (`select_eq`), a filter keeps the rows that pass
(`filter_eq`), and a rename changes the header alone (`rename_eq`). Names are looked up by the first
column that has them, so headers may repeat names.
-/
namespace PrivateQuery

/-- The cell of a row under a name, null if there is none. -/
def cellNamed (header : List String) (row : List Value) (name : String) : Value :=
  (Predicate.cell? header row name).getD .null

/-- Whether a predicate evaluates to true on a row. -/
def Predicate.passes (p : Predicate) (header : List String) (row : List Value) : Bool :=
  match p.holds header row with
  | .ok true => true
  | _ => false

theorem Predicate.passes_iff {p : Predicate} {header : List String} {row : List Value} :
    p.passes header row = true ↔ p.holds header row = .ok true := by
  unfold passes
  split
  · rename_i holds
    simp [holds]
  · rename_i other
    simpa using other

namespace Frame

variable {f : Frame} {header : List String} {name : String}

/-! ## Positions -/

theorem findIdx_lt_of_mem (own : name ∈ header) :
    header.findIdx (· == name) < header.length :=
  List.findIdx_lt_length_of_exists ⟨name, own, by simp⟩

theorem findIdx?_of_mem (own : name ∈ header) :
    header.findIdx? (· == name) = some (header.findIdx (· == name)) :=
  List.findIdx?_eq_some_iff_findIdx_eq.2 ⟨findIdx_lt_of_mem own, rfl⟩

theorem position_eq (own : name ∈ f.header) :
    f.position name = .ok (f.header.findIdx (· == name)) := by
  simp [position, findIdx?_of_mem own]

theorem positions_eq {names : List String} (sub : ∀ name ∈ names, name ∈ f.header) :
    f.positions names = .ok (names.map fun name => f.header.findIdx (· == name)) := by
  induction names with
  | nil => rfl
  | cons name names ih =>
    have first := position_eq (sub name List.mem_cons_self)
    have rest := ih fun other mem => sub other (List.mem_cons_of_mem name mem)
    simp [positions, first, rest, Except.map]

/-! ## Cells -/

theorem cellAt_findIdx (own : name ∈ header) (row : List Value) :
    cellAt (header.findIdx (· == name)) row = cellNamed header row name := by
  simp [cellAt, cellNamed, Predicate.cell?, findIdx?_of_mem own]

theorem cell?_of_mem {row : List Value} (wide : row.length = header.length) (own : name ∈ header) :
    Predicate.cell? header row name = some (cellNamed header row name) := by
  have inside : header.findIdx (· == name) < row.length := by
    rw [wide]
    exact findIdx_lt_of_mem own
  simp [cellNamed, Predicate.cell?, findIdx?_of_mem own, inside]

theorem column_eq (own : name ∈ f.header) :
    f.column name = .ok (f.rows.map fun row => cellNamed f.header row name) := by
  simp [column, position_eq own, Except.map, ← cellAt_findIdx own]

theorem value_of_mentions {p : Predicate} {row : List Value} (wide : row.length = header.length)
    (own : ∀ column ∈ p.mentions, column ∈ header) : ∃ v, p.value header row = .ok v := by
  induction p with
  | column name =>
    have found := cell?_of_mem wide (own name (by simp [Predicate.mentions]))
    exact ⟨cellNamed header row name, by simp [Predicate.value, found]⟩
  | literal v => exact ⟨v, rfl⟩
  | unary op operand ih =>
    obtain ⟨v, done⟩ := ih own
    exact ⟨op.apply v, by simp [Predicate.value, done, bind, Except.bind, pure, Except.pure]⟩
  | binary op left right ihl ihr =>
    obtain ⟨l, left⟩ := ihl fun c mem => own c (by simp [Predicate.mentions, mem])
    obtain ⟨r, right⟩ := ihr fun c mem => own c (by simp [Predicate.mentions, mem])
    exact ⟨op.apply l r,
      by simp [Predicate.value, left, right, bind, Except.bind, pure, Except.pure]⟩

theorem satisfying_eq {p : Predicate} {rows : List (List Value)}
    (valued : ∀ row ∈ rows, ∃ v, p.value header row = .ok v) :
    satisfying p header rows = .ok (rows.filter (p.passes header)) := by
  induction rows with
  | nil => rfl
  | cons row rows ih =>
    obtain ⟨v, done⟩ := valued row List.mem_cons_self
    have rest := ih fun other mem => valued other (List.mem_cons_of_mem row mem)
    have holds : p.holds header row = .ok (v == .boolean true) := by
      simp [Predicate.holds, done, bind, Except.bind, pure, Except.pure]
    cases satisfied : v == .boolean true <;>
      simp [satisfying, Predicate.passes, holds, satisfied, rest, Except.map]

/-! ## Operations -/

theorem select_eq {names : List String} (sub : ∀ name ∈ names, name ∈ f.header) :
    ∃ f', f.select names = .ok f' ∧ f'.header = names ∧
      f'.rows = f.rows.map fun row => names.map (cellNamed f.header row) := by
  have cells (row : List Value) :
      (names.map fun name => f.header.findIdx (· == name)).map (fun i => cellAt i row) =
        names.map (cellNamed f.header row) := by
    rw [List.map_map]
    apply List.map_congr_left
    intro name mem
    exact cellAt_findIdx (sub name mem) row
  unfold select
  split
  · rename_i e failed
    simp [positions_eq sub] at failed
  · rename_i is found
    rw [positions_eq sub, Except.ok.injEq] at found
    subst found
    exact ⟨_, rfl, rfl, List.map_congr_left fun row _ => cells row⟩

theorem filter_eq {p : Predicate} (own : ∀ column ∈ p.columns, column ∈ f.header) :
    ∃ f', f.filter p = .ok f' ∧ f'.header = f.header ∧
      f'.rows = f.rows.filter (p.passes f.header) := by
  have kept : satisfying p f.header f.rows = .ok (f.rows.filter (p.passes f.header)) := by
    apply satisfying_eq
    intro row mem
    apply value_of_mentions (f.rectangular row mem)
    intro column mentioned
    exact own column (List.mem_eraseDups.2 mentioned)
  unfold filter
  split
  · rename_i e failed
    simp [kept] at failed
  · rename_i rows found
    rw [kept, Except.ok.injEq] at found
    exact ⟨_, rfl, rfl, found.symm⟩

theorem rename_eq {old : String} (new : String) (own : old ∈ f.header) :
    ∃ f', f.rename old new = .ok f' ∧
      f'.header = f.header.set (f.header.findIdx (· == old)) new ∧ f'.rows = f.rows := by
  unfold rename
  rw [position_eq own]
  exact ⟨_, rfl, rfl, rfl⟩

end Frame

end PrivateQuery
