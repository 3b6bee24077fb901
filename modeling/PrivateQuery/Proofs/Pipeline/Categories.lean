import PrivateQuery.Proofs.Pipeline.Phases
import PrivateQuery.Proofs.Value.Identity

/-!
# Categories

A bin that passes its check lists categories: all words from its first to its last one if the column
is of integers, and otherwise its values, which are of the kind of the column (`Bin.Lists`). The values
of a bin are distinct, and so are the categories (`Bin.Lists.distinct`). Every histogram that is
compiled counts by such categories (`pipeline_categories`).
-/
namespace PrivateQuery

/-- What a bin lists for a column of a type, where it may span at most a number of words. -/
inductive Bin.Lists (most : Nat) (b : Bin) : ColumnType → List Value → Prop where
  | words {low high first last : Int64} {words : List Int64}
      (begins : b.values.head? = some (.integer first))
      (ends : b.values.getLast? = some (.integer last))
      (ascending : words.Pairwise (· < ·))
      (all : ∀ word, word ∈ words ↔ first ≤ word ∧ word ≤ last)
      (number : (words.length : Int) = last.toInt - first.toInt + 1)
      (few : words.length ≤ most) :
      Lists most b (.int low high) (words.map .integer)
  | booleans (kind : ∀ v ∈ b.values, v.isBoolean = true) : Lists most b .bool b.values
  | texts (kind : ∀ v ∈ b.values, v.isText = true) : Lists most b .text b.values
  | labels {labels : List String} (kind : ∀ v ∈ b.values, v.isText = true) :
      Lists most b (.labelled labels) b.values

/-! ## Words -/

theorem values_of_integers {values : List Value} {words : List Int64}
    (read : Transition.integers values = .ok words) : values = words.map .integer := by
  induction values generalizing words with
  | nil =>
    cases read
    rfl
  | cons v values ih =>
    cases v with
    | integer i =>
      obtain ⟨rest, others, rfl⟩ := map_eq_ok.1 read
      rw [List.map_cons, ← ih others]
    | _ => simp [Transition.integers] at read

theorem pairwise_of_ascends {words : List Int64} (ascends : Transition.ascends words = true) :
    words.Pairwise (· < ·) := by
  induction words with
  | nil => exact .nil
  | cons first rest ih =>
    cases rest with
    | nil => exact List.pairwise_singleton _ _
    | cons second rest =>
      simp only [Transition.ascends, Bool.and_eq_true, decide_eq_true_eq] at ascends
      obtain ⟨lt, ascends⟩ := ascends
      have tail := ih ascends
      refine List.pairwise_cons.2 ⟨fun word mem => ?_, tail⟩
      rcases List.mem_cons.1 mem with rfl | mem
      · exact lt
      · exact Int64.lt_trans lt ((List.pairwise_cons.1 tail).1 word mem)

theorem max?_of_ascending {words : List Int64} (ascending : words.Pairwise (· < ·)) :
    words.max? = words.getLast? := by
  cases words with
  | nil => rfl
  | cons first rest =>
    rw [List.max?_cons', List.getLast?_cons]
    congr 1
    induction rest generalizing first with
    | nil => rfl
    | cons second rest ih =>
      obtain ⟨above, tail⟩ := List.pairwise_cons.1 ascending
      have lt := above second List.mem_cons_self
      have larger : max first second = second := if_pos (Int64.le_of_lt lt)
      rw [List.foldl_cons, larger, ih second tail, List.getLast?_cons]
      rfl

theorem min?_of_ascending {words : List Int64} (ascending : words.Pairwise (· < ·)) :
    words.min? = words.head? :=
  List.min?_eq_head? (ascending.imp fun lt => if_pos (Int64.le_of_lt lt))

/-- A span has the words between its ends, each once and ascending. -/
theorem span_words (low high : Int64) :
    ∃ words : List Int64, Assembly.span low high = words.map .integer ∧
      words.Pairwise (· < ·) ∧ (∀ word, word ∈ words ↔ low ≤ word ∧ word ≤ high) ∧
      words.length = (high.toInt - low.toInt + 1).toNat := by
  have lowest := Word.inRange_toInt low
  have highest := Word.inRange_toInt high
  -- Nothing is clamped: what is added to the lower end stays at most the upper one.
  refine ⟨(List.range (high.toInt - low.toInt + 1).toNat).map fun (i : Nat) =>
    Word.clamp (low.toInt + i), by simp [Assembly.span], ?_, ?_, by simp⟩
  · rw [List.pairwise_map]
    refine List.pairwise_lt_range.imp_of_mem fun {i j} memi memj lt => ?_
    rw [List.mem_range] at memi memj
    rw [Int64.lt_iff_toInt_lt, Word.toInt_clamp, Word.toInt_clamp]
    omega
  · intro word
    simp only [List.mem_map, List.mem_range, Int64.le_iff_toInt_le]
    constructor
    · rintro ⟨i, lt, rfl⟩
      rw [Word.toInt_clamp]
      omega
    · rintro ⟨above, below⟩
      refine ⟨(word.toInt - low.toInt).toNat, by omega, Int64.toInt_inj.1 ?_⟩
      rw [Word.toInt_clamp]
      omega

/-! ## Bins -/

namespace Bin

variable {b : Bin} {most : Nat} {type : ColumnType} {categories : List Value}

/-- Bins of an integer column that pass their check are ascending words that do not span too many. -/
theorem words_of_checkIntegerBins (checked : Transition.checkIntegerBins most b = .ok ()) :
    ∃ first rest, b.values = (first :: rest).map .integer ∧
      (first :: rest).Pairwise (· < ·) ∧
      ((first :: rest).getLastD 0).toInt - ((first :: rest).headD 0).toInt + 1 ≤ (most : Int) := by
  unfold Transition.checkIntegerBins at checked
  split at checked
  · simp at checked
  · rename_i several
    split at checked
    · simp at checked
    · rename_i words read
      have length := length_of_integers read
      obtain ⟨first, rest, rfl⟩ : ∃ first rest, words = first :: rest :=
        List.exists_cons_of_length_pos (by omega)
      dsimp only at checked
      split at checked
      · simp at checked
      · rename_i ascends
        split at checked
        · simp at checked
        · rename_i few
          exact ⟨first, rest, values_of_integers read, pairwise_of_ascends (by simpa using ascends),
            by simpa using few⟩

/-- Ascending integers list the words from the first to the last. -/
theorem lists_of_integers {low high first : Int64} {rest : List Int64}
    (values : b.values = (first :: rest).map .integer)
    (ascending : (first :: rest).Pairwise (· < ·))
    (few : ((first :: rest).getLastD 0).toInt - ((first :: rest).headD 0).toInt + 1 ≤ (most : Int))
    (listed : Assembly.categories b (.int low high) = .ok categories) :
    b.Lists most (.int low high) categories := by
  obtain ⟨last, final⟩ : ∃ last, (first :: rest).getLast? = some last := ⟨_, List.getLast?_cons⟩
  have words : b.values.filterMap Value.toInt64? = first :: rest := by
    rw [values, List.filterMap_map]
    exact List.filterMap_some
  simp only [Assembly.categories, words, min?_of_ascending ascending, max?_of_ascending ascending,
    final, List.head?_cons, Except.ok.injEq] at listed
  obtain ⟨between, spans, ascending', all, number⟩ := span_words first last
  rw [List.getLastD_eq_getLast?, final, List.headD_cons] at few
  have span : first ≤ last := by
    rcases List.mem_cons.1 (List.mem_of_getLast? final) with rfl | mem
    · exact Int64.le_refl _
    · exact Int64.le_of_lt ((List.pairwise_cons.1 ascending).1 last mem)
  rw [Int64.le_iff_toInt_le] at span
  dsimp only [Option.getD] at few
  rw [← listed, spans]
  refine .words (by simp [values]) ?_ ascending' all (by omega) (by omega)
  rw [values, List.getLast?_map, final]
  rfl

theorem all_of_checked {values : List Value} {kind : Value → Bool} {cause : QueryError}
    (checked : (if values.all kind then Except.ok () else Except.error cause) = .ok ()) :
    ∀ v ∈ values, kind v = true := by
  split at checked
  · rename_i all
    exact List.all_eq_true.1 all
  · simp at checked

/-- **`lists_of_checkBins`**: a bin that suits its column lists its categories. -/
theorem lists_of_checkBins (checked : Transition.checkBins most b type = .ok ())
    (listed : Assembly.categories b type = .ok categories) : b.Lists most type categories := by
  cases type with
  | int low high =>
    obtain ⟨first, rest, values, ascending, few⟩ := words_of_checkIntegerBins checked
    exact lists_of_integers values ascending few listed
  | double low high =>
    change Except.error (QueryError.scope (.doubleBins b.column)) = .ok () at checked
    simp at checked
  | bool =>
    cases listed
    exact .booleans (all_of_checked checked)
  | text =>
    cases listed
    exact .texts (all_of_checked checked)
  | labelled labels =>
    cases listed
    exact .labels (all_of_checked checked)

/-- **`Lists.distinct`**: distinct bins list distinct categories. -/
theorem Lists.distinct (lists : b.Lists most type categories) (bins : Value.Distinct b.values) :
    Value.Distinct categories := by
  cases lists with
  | words begins ends ascending =>
    refine List.pairwise_map.2 (ascending.imp fun {v w} lt => ?_)
    have apart : (v == w) = false := beq_eq_false_iff_ne.2 (Int64.ne_of_lt lt)
    exact apart
  | booleans | texts | labels => exact bins

end Bin

/-! ## Queries -/

/-- **`pipeline_categories`**: a pipeline with categories has them from the bin of a column of the
working schema, and its measurement has been calibrated for a count by them. -/
theorem pipeline_categories {library : Library} {parameters : Parameters} {budget : Budget}
    {notion : Notion} {schema : Schema} {steps : List Step} {c : Course Assembly}
    {pipeline : Pipeline} {categories : List Value}
    (compiled : compile library parameters budget notion schema steps = .ok c)
    (built : c.pipeline = .ok pipeline) (histogram : pipeline.categories? = some categories) :
    ∃ (working : Schema) (measure : Measure) (type : ColumnType) (b : Bin),
      Projects schema pipeline.projection working ∧
      working.typeOf measure.column = .ok type ∧ b.column = measure.column ∧
      b.Lists parameters.maxCategories type categories ∧ Value.Distinct categories ∧
      Assembly.calibrated library budget notion measure.mechanism
        (.byCategories measure.column categories) = .ok pipeline.measurement := by
  obtain ⟨s, a⟩ := c
  have fits := compile_fits compiled
  dsimp only at fits
  generalize measuring steps = taken at fits
  cases fits with
  | noised projects due found =>
    cases built
    obtain ⟨taken, awaits, -⟩ := due
    cases awaits with
    | histogram typed binned distinct checked listed =>
      cases taken
      cases histogram
      have lists := Bin.lists_of_checkBins checked listed
      exact ⟨_, _, _, _, projects, typed, binned, lists,
        lists.distinct (Value.allDistinct_iff.1 distinct), found⟩
    | _ => simp at histogram
  | _ => simp [Course.pipeline] at built

end PrivateQuery
