import PrivateQuery.Frame.Csv
import PrivateQuery.Proofs.Outcome
import Mathlib.Tactic.Common

/-!
# Which payloads can be read

A payload is read under a schema exactly when its header has every column of the schema and all of its
lines are as wide as the header (`ofCsv_ok_iff`). The header of the frame is that of the payload, so a
frame that was read covers its schema (`covers_of_ofCsv`).
-/
namespace PrivateQuery

/-- The header of a payload. -/
def Csv.header (payload : String) : List String :=
  ((Csv.lines payload).headD []).map Text.trim

namespace Frame

variable {payload : String} {schema : Schema} {frame : Frame}

/-! ## Rows -/

/-- Lines that are as wide as the header become rows of its width. -/
theorem readRows_ok {types : List ColumnType} {lines : List (List String)}
    (even : ∀ line ∈ lines, line.length = types.length) :
    ∃ rows, readRows types lines = .ok rows ∧ ∀ row ∈ rows, row.length = types.length := by
  induction lines with
  | nil => exact ⟨[], rfl, by simp⟩
  | cons line lines ih =>
    obtain ⟨rows, read, wide⟩ := ih fun other mem => even other (List.mem_cons_of_mem line mem)
    have width : line.length = types.length := even line List.mem_cons_self
    refine ⟨List.zipWith ColumnType.read types line :: rows, ?_, ?_⟩
    · simp [readRows, width, read, Except.map]
    · intro row mem
      rcases List.mem_cons.1 mem with rfl | mem
      · simp [width]
      · exact wide row mem

theorem even_of_readRows {types : List ColumnType} {lines : List (List String)}
    {rows : List (List Value)} (read : readRows types lines = .ok rows) :
    ∀ line ∈ lines, line.length = types.length := by
  induction lines generalizing rows with
  | nil => simp
  | cons line lines ih =>
    unfold readRows at read
    split at read
    · simp at read
    · rename_i width
      obtain ⟨rest, readRest, -⟩ := map_eq_ok.1 read
      intro other mem
      rcases List.mem_cons.1 mem with rfl | mem
      · simpa using width
      · exact ih readRest other mem

theorem ofRows_ok {header : List String} {rows : List (List Value)}
    (wide : ∀ row ∈ rows, row.length = header.length) :
    ofRows header rows = .ok ⟨header, rows, wide⟩ := by
  unfold ofRows
  split
  · rename_i row found
    have uneven := List.find?_some found
    simp [wide row (List.mem_of_find?_eq_some found)] at uneven
  · rfl

theorem header_of_ofRows {header : List String} {rows : List (List Value)}
    (h : ofRows header rows = .ok frame) : frame.header = header := by
  unfold ofRows at h
  split at h
  · simp at h
  · cases h
    rfl

/-! ## Payloads -/

/-- What reading a payload comes to once its lines are told apart. -/
theorem ofCsv_eq (payload : String) (schema : Schema) : ofCsv payload schema =
    match schema.names.find? (fun name => !(Csv.header payload).contains name) with
    | some name => .error (.missingColumn name)
    | none => readRows ((Csv.header payload).map (typeUnder schema)) (Csv.lines payload).tail >>=
        ofRows (Csv.header payload) := by
  unfold ofCsv Csv.header
  cases Csv.lines payload <;> rfl

/-- The first column of the schema that a header lacks is missed. -/
theorem ofCsv_of_missing {name : String}
    (missing : schema.names.find? (fun name => !(Csv.header payload).contains name) = some name) :
    ofCsv payload schema = .error (.missingColumn name) := by
  rw [ofCsv_eq, missing]

/-- A frame that was read has the header of its payload and covers the schema. -/
theorem covers_of_ofCsv (read : ofCsv payload schema = .ok frame) :
    frame.header = Csv.header payload ∧ ∀ name ∈ schema.names, name ∈ frame.header := by
  rw [ofCsv_eq] at read
  split at read
  · simp at read
  · rename_i none
    obtain ⟨rows, -, framed⟩ := bind_eq_ok.1 read
    have header := header_of_ofRows framed
    refine ⟨header, fun name mem => ?_⟩
    simpa [header] using List.find?_eq_none.1 none name mem

/-- **`ofCsv_ok_iff`**: a payload is read exactly when its header covers the schema and all of its lines
are as wide as its header. -/
theorem ofCsv_ok_iff : (∃ frame, ofCsv payload schema = .ok frame) ↔
    (∀ name ∈ schema.names, name ∈ Csv.header payload) ∧
      ∀ line ∈ (Csv.lines payload).tail, line.length = (Csv.header payload).length := by
  constructor
  · rintro ⟨frame, read⟩
    obtain ⟨header, covers⟩ := covers_of_ofCsv read
    refine ⟨fun name mem => header ▸ covers name mem, ?_⟩
    rw [ofCsv_eq] at read
    split at read
    · simp at read
    · obtain ⟨rows, readLines, -⟩ := bind_eq_ok.1 read
      simpa using even_of_readRows readLines
  · rintro ⟨covers, even⟩
    have none : schema.names.find? (fun name => !(Csv.header payload).contains name) = none := by
      simpa using covers
    have same : ((Csv.header payload).map (typeUnder schema)).length =
        (Csv.header payload).length := List.length_map _
    rw [← same] at even
    obtain ⟨rows, read, wide⟩ := readRows_ok even
    rw [ofCsv_eq, none]
    refine ⟨⟨Csv.header payload, rows, by simpa using wide⟩, ?_⟩
    simp only [read]
    exact ofRows_ok _

end Frame

end PrivateQuery
