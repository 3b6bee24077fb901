import PrivateQuery.Predicate.Basic

/-!
# Frames: `Dataset`

A frame is a header over rows of values, each as wide as the header. Frames are selected, filtered
and renamed like schemas are, by the first column of a name; their headers may repeat names.
-/
namespace PrivateQuery

inductive FrameError where
  | rowWidth (cells columns : Nat)
  /-- Two lines of a payload differ in their number of fields. -/
  | unevenPayload
  | missingColumn (name : String)
  | unknownDataset (id : Nat)
  | predicate (error : PredicateError)
  /-- An error in the words of the source of a payload, of a kind or of none. -/
  | reported (kind : Option String) (description : String)
deriving DecidableEq, Repr

namespace FrameError

def kind? : FrameError → Option String
  | rowWidth .. | unevenPayload => some "InvalidPayload"
  | missingColumn _ => some "MissingColumn"
  | unknownDataset _ => some "UnknownDataset"
  | predicate _ => none
  | reported kind _ => kind

def description : FrameError → String
  | rowWidth cells columns => s!"row of {cells} cells for {columns} columns"
  | unevenPayload => "CSV error: the lines differ in length"
  | missingColumn name => s!"column {name} is missing"
  | unknownDataset id => s!"dataset {id} is unknown"
  | predicate error => error.message
  | reported _ description => description

def message (e : FrameError) : String :=
  match e.kind? with
  | some kind => kind ++ ": " ++ e.description
  | none => e.description

end FrameError

structure Frame where
  header : List String
  rows : List (List Value)
  /-- Every row is as wide as the header. -/
  rectangular : ∀ row ∈ rows, row.length = header.length

namespace Frame

/-- The frame of some rows under a header, if they are as wide as it (`Dataset.new`). -/
def ofRows (header : List String) (rows : List (List Value)) : Except FrameError Frame :=
  match h : rows.find? fun row => row.length != header.length with
  | some row => .error (.rowWidth row.length header.length)
  | none => .ok ⟨header, rows, fun row mem => by
    have := List.find?_eq_none.1 h row mem
    simpa using this⟩

/-- The position of the first column of a name (`Dataset.index_of`). -/
def position (f : Frame) (name : String) : Except FrameError Nat :=
  match f.header.findIdx? (· == name) with
  | some i => .ok i
  | none => .error (.missingColumn name)

/-- The cell at a position, null beyond the end of the row. -/
def cellAt (i : Nat) (row : List Value) : Value := row.getD i .null

def column (f : Frame) (name : String) : Except FrameError (List Value) :=
  (f.position name).map fun i => f.rows.map (cellAt i)

def positions (f : Frame) : (names : List String) → Except FrameError (List Nat)
  | [] => .ok []
  | name :: names =>
    match f.position name with
    | .error e => .error e
    | .ok i => (f.positions names).map (i :: ·)

theorem length_of_positions {f : Frame} {names : List String} {is : List Nat}
    (h : f.positions names = .ok is) : is.length = names.length := by
  induction names generalizing is with
  | nil =>
    cases h
    rfl
  | cons name names ih =>
    unfold positions at h
    split at h
    · cases h
    · cases rest : f.positions names with
      | error e => simp [rest, Except.map] at h
      | ok js =>
        simp only [rest, Except.map, Except.ok.injEq] at h
        subst h
        simp [ih rest]

def select (f : Frame) (names : List String) : Except FrameError Frame :=
  match h : f.positions names with
  | .error e => .error e
  | .ok is => .ok ⟨names, f.rows.map fun row => is.map fun i => cellAt i row, fun row mem => by
    obtain ⟨_, _, rfl⟩ := List.mem_map.1 mem
    simpa using length_of_positions h⟩

/-- The rows of a list that satisfy a predicate. -/
def satisfying (p : Predicate) (header : List String) :
    (rows : List (List Value)) → Except PredicateError (List (List Value))
  | [] => .ok []
  | row :: rows =>
    match p.holds header row with
    | .error e => .error e
    | .ok true => (satisfying p header rows).map (row :: ·)
    | .ok false => satisfying p header rows

theorem sublist_of_satisfying {p : Predicate} {header : List String} {rows kept : List (List Value)}
    (h : satisfying p header rows = .ok kept) : List.Sublist kept rows := by
  induction rows generalizing kept with
  | nil =>
    cases h
    exact List.nil_sublist _
  | cons row rows ih =>
    unfold satisfying at h
    split at h
    · cases h
    · cases rest : satisfying p header rows with
      | error e => simp [rest, Except.map] at h
      | ok more =>
        simp only [rest, Except.map, Except.ok.injEq] at h
        subst h
        exact (ih rest).cons_cons row
    · exact (ih h).cons row

def filter (f : Frame) (p : Predicate) : Except FrameError Frame :=
  match h : satisfying p f.header f.rows with
  | .error e => .error (.predicate e)
  | .ok kept => .ok ⟨f.header, kept, fun row mem =>
    f.rectangular row ((sublist_of_satisfying h).subset mem)⟩

/-- Give the first column of a name a new one. -/
def rename (f : Frame) (old new : String) : Except FrameError Frame :=
  (f.position old).map fun i => ⟨f.header.set i new, f.rows, by simpa using f.rectangular⟩

end Frame

end PrivateQuery
