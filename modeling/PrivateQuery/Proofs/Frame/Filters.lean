import PrivateQuery.Proofs.Frame.Reading
import PrivateQuery.Proofs.Predicate.Truth
import Mathlib.Data.List.Basic

/-!
# Filters

Filters that are applied one after the other keep the rows that pass all of them (`filters_eq`), so
neither their order nor their number matters, and a single filter by a conjunction of them does the
same however it is nested (`filters_conjunction`). A predicate that gives a truth value shares the rows
out: each is kept by the predicate, by its negation or by the test that it is null, and by no two of
these (`filter_partition`).
-/
namespace PrivateQuery

/-! ## Passing -/

namespace Predicate

variable {header : List String} {row : List Value} {p q : Predicate} {v : Value}

/-- A row passes where the predicate has a value and that is true. -/
theorem passes_iff_value : p.passes header row = true ↔ p.value header row = .ok (.boolean true) := by
  simp only [passes_iff, holds, bind_eq_ok, pure_eq_ok, Value.same_boolean_iff]
  constructor
  · rintro ⟨v, done, rfl⟩
    exact done
  · intro done
    exact ⟨_, done, rfl⟩

theorem passes_and : (binary .and p q).passes header row =
    (p.passes header row && q.passes header row) := by
  rw [Bool.eq_iff_iff, Bool.and_eq_true]
  simp only [passes_iff_value, value_binary_eq_ok_iff, BinaryOperator.and_eq_true_iff]
  constructor
  · rintro ⟨x, y, left, right, rfl, rfl⟩
    exact ⟨left, right⟩
  · rintro ⟨left, right⟩
    exact ⟨_, _, left, right, rfl, rfl⟩

/-- Whether a predicate is true or false on a row, if it is either. -/
def verdict (p : Predicate) (header : List String) (row : List Value) : Option Bool :=
  match p.value header row with
  | .ok v => v.toBool?
  | .error _ => none

theorem verdict_eq_some_iff {b : Bool} :
    p.verdict header row = some b ↔ p.value header row = .ok (.boolean b) := by
  unfold verdict
  cases p.value header row with
  | error e => simp
  | ok v => simp [Value.toBool?_eq_some_iff]

theorem passes_eq_verdict : p.passes header row = (p.verdict header row == some true) := by
  rw [Bool.eq_iff_iff, beq_iff_eq, verdict_eq_some_iff, passes_iff_value]

theorem passes_not : (unary .not p).passes header row = (p.verdict header row == some false) := by
  rw [Bool.eq_iff_iff, beq_iff_eq, verdict_eq_some_iff, passes_iff_value, value_unary_eq_ok_iff]
  simp only [UnaryOperator.not_eq_boolean_iff, Bool.not_true, exists_eq_right]

/-- Where there is a truth value, it is null if the predicate is neither true nor false. -/
theorem passes_isNull (done : p.value header row = .ok v) (truth : v.IsTruth) :
    (unary .isNull p).passes header row = (p.verdict header row == none) := by
  rw [Bool.eq_iff_iff, beq_iff_eq, passes_iff_value, value_unary_eq_ok_iff, verdict, done]
  cases truth <;> simp [UnaryOperator.isNull_eq_true_iff, Value.toBool?]

end Predicate

/-! ## Conjunctions -/

/-- A predicate that is the conjunction of a list of predicates, nested in any way. -/
inductive IsConjunction : List Predicate → Predicate → Prop where
  | single (p : Predicate) : IsConjunction [p] p
  | and {ps qs : List Predicate} {p q : Predicate} (left : IsConjunction ps p)
      (right : IsConjunction qs q) : IsConjunction (ps ++ qs) (.binary .and p q)

namespace IsConjunction

variable {ps : List Predicate} {q : Predicate}

/-- A row passes a conjunction if it passes each of its parts. -/
theorem passes_eq (conj : IsConjunction ps q) (header : List String) (row : List Value) :
    q.passes header row = ps.all fun p => p.passes header row := by
  induction conj with
  | single p => simp
  | and left right ihl ihr => rw [Predicate.passes_and, ihl, ihr, List.all_append]

theorem exists_mem (conj : IsConjunction ps q) {column : String} (mentioned : column ∈ q.columns) :
    ∃ p ∈ ps, column ∈ p.columns := by
  simp only [Predicate.columns, List.mem_eraseDups] at mentioned ⊢
  induction conj with
  | single p => exact ⟨p, List.mem_singleton_self p, mentioned⟩
  | and left right ihl ihr =>
    rcases List.mem_append.1 mentioned with mentioned | mentioned
    · obtain ⟨p, mem, own⟩ := ihl mentioned
      exact ⟨p, List.mem_append_left _ mem, own⟩
    · obtain ⟨p, mem, own⟩ := ihr mentioned
      exact ⟨p, List.mem_append_right _ mem, own⟩

end IsConjunction

namespace Frame

variable {f : Frame} {ps : List Predicate} {p : Predicate}

/-- **`filters_eq`**: filters one after the other keep the rows that pass them all. -/
theorem filters_eq (own : ∀ p ∈ ps, ∀ column ∈ p.columns, column ∈ f.header) :
    ∃ f', ps.foldlM Frame.filter f = .ok f' ∧ f'.header = f.header ∧
      f'.rows = f.rows.filter fun row => ps.all fun p => p.passes f.header row := by
  induction ps generalizing f with
  | nil => exact ⟨f, rfl, rfl, by simp⟩
  | cons p ps ih =>
    obtain ⟨middle, first, header, rows⟩ := filter_eq (own p List.mem_cons_self)
    obtain ⟨f', rest, header', rows'⟩ := ih (f := middle) fun q mem column mentioned =>
      header ▸ own q (List.mem_cons_of_mem p mem) column mentioned
    refine ⟨f', ?_, header'.trans header, ?_⟩
    · rw [List.foldlM_cons, first]
      exact rest
    · rw [rows', header, rows, List.filter_filter]
      exact List.filter_congr fun row _ => by rw [List.all_cons, Bool.and_comm]

/-- **`filters_conjunction`**: filters that look at columns of the frame keep the rows that pass them
all, in their order. The same is kept by the filters in any other order and with any repetition, and
by one filter whose predicate is a conjunction of them, in any order, repetition and nesting. -/
theorem filters_conjunction (own : ∀ p ∈ ps, ∀ column ∈ p.columns, column ∈ f.header) :
    ∃ kept : Frame, kept.header = f.header ∧
      kept.rows = (f.rows.filter fun row => ps.all fun p => p.passes f.header row) ∧
      ∀ qs : List Predicate, (∀ p, p ∈ qs ↔ p ∈ ps) →
        qs.foldlM Frame.filter f = .ok kept ∧
        ∀ q, IsConjunction qs q → f.filter q = .ok kept := by
  obtain ⟨kept, -, header, rows⟩ := filters_eq own
  refine ⟨kept, header, rows, fun qs same => ?_⟩
  have own' : ∀ q ∈ qs, ∀ column ∈ q.columns, column ∈ f.header :=
    fun q mem => own q ((same q).1 mem)
  have all (row : List Value) :
      (qs.all fun p => p.passes f.header row) = ps.all fun p => p.passes f.header row := by
    rw [Bool.eq_iff_iff]
    simp only [List.all_eq_true, same]
  constructor
  · obtain ⟨kept', done, header', rows'⟩ := filters_eq own'
    simp only [all] at rows'
    rw [done, eq_of_rows (header'.trans header.symm) (rows'.trans rows.symm)]
  · intro q conj
    obtain ⟨kept', done, header', rows'⟩ := filter_eq (p := q) fun column mentioned => by
      obtain ⟨p, mem, part⟩ := conj.exists_mem mentioned
      exact own' p mem column part
    have passes : q.passes f.header = fun row => ps.all fun p => p.passes f.header row :=
      funext fun row => (conj.passes_eq f.header row).trans (all row)
    rw [passes] at rows'
    rw [done, eq_of_rows (header'.trans header.symm) (rows'.trans rows.symm)]

/-- Three people, one without a job and one without an age. -/
def threePeople : Frame :=
  ⟨["age", "job"], [[.integer 42, .text "Baker"], [.integer 67, .null], [.null, .text "Smith"]],
    by decide⟩

/-- An age above thirty; null if there is none. -/
def overThirty : Predicate := .binary .gt (.column "age") (.literal (.integer 30))

def hasJob : Predicate := .unary .isNotNull (.column "job")

/-- Both filters keep the first row, in either order and when one is repeated. -/
theorem filters_conjunction_threePeople : ∃ kept : Frame, kept.header = ["age", "job"] ∧
    kept.rows = [[.integer 42, .text "Baker"]] ∧
    [hasJob, overThirty, hasJob].foldlM Frame.filter threePeople = .ok kept ∧
    threePeople.filter (.binary .and (.binary .and hasJob overThirty) hasJob) = .ok kept := by
  have own : ∀ p ∈ [overThirty, hasJob], ∀ column ∈ p.columns, column ∈ threePeople.header := by
    decide
  obtain ⟨kept, header, rows, others⟩ := filters_conjunction own
  have same (p : Predicate) : p ∈ [hasJob, overThirty, hasJob] ↔ p ∈ [overThirty, hasJob] := by
    simp only [List.mem_cons, List.not_mem_nil, or_false]
    tauto
  obtain ⟨inTurn, atOnce⟩ := others _ same
  refine ⟨kept, header, rows.trans (by decide), inTurn, atOnce _ ?_⟩
  exact .and (.and (.single hasJob) (.single overThirty)) (.single hasJob)

end Frame

/-! ## Truth values share the rows out -/

theorem perm_verdicts {α : Type} (verdict : α → Option Bool) (l : List α) :
    (l.filter (verdict · == some true) ++ l.filter (verdict · == some false) ++
      l.filter (verdict · == none)).Perm l := by
  induction l with
  | nil => rfl
  | cons a l ih =>
    cases here : verdict a with
    | none => simpa [here] using List.perm_middle.trans (ih.cons a)
    | some b =>
      cases b with
      | true => simpa [here] using ih
      | false =>
        rw [List.append_assoc] at ih
        simpa [here] using List.perm_middle.trans (ih.cons a)

theorem disjoint_verdicts {α : Type} (verdict : α → Option Bool) (l : List α) {a b : Option Bool}
    (apart : a ≠ b) : (l.filter (verdict · == a)).Disjoint (l.filter (verdict · == b)) := by
  intro x here there
  have first := beq_iff_eq.1 (List.mem_filter.1 here).2
  have second := beq_iff_eq.1 (List.mem_filter.1 there).2
  exact apart (first.symm.trans second)

namespace Frame

variable {f : Frame} {p : Predicate}

/-- The three filters, by what the predicate says of each row. -/
theorem filter_verdicts (judges : p.Judges) (own : ∀ column ∈ p.columns, column ∈ f.header) :
    ∃ kept rejected unknown : Frame, f.filter p = .ok kept ∧
      f.filter (.unary .not p) = .ok rejected ∧ f.filter (.unary .isNull p) = .ok unknown ∧
      kept.rows = f.rows.filter (p.verdict f.header · == some true) ∧
      rejected.rows = f.rows.filter (p.verdict f.header · == some false) ∧
      unknown.rows = f.rows.filter (p.verdict f.header · == none) := by
  obtain ⟨kept, hKept, -, keptRows⟩ := filter_eq own
  obtain ⟨rejected, hRejected, -, rejectedRows⟩ := filter_eq (p := .unary .not p) own
  obtain ⟨unknown, hUnknown, -, unknownRows⟩ := filter_eq (p := .unary .isNull p) own
  refine ⟨kept, rejected, unknown, hKept, hRejected, hUnknown, ?_, ?_, ?_⟩
  · rw [keptRows]
    exact List.filter_congr fun row _ => Predicate.passes_eq_verdict
  · rw [rejectedRows]
    exact List.filter_congr fun row _ => Predicate.passes_not
  · rw [unknownRows]
    refine List.filter_congr fun row mem => ?_
    obtain ⟨v, done⟩ := value_of_mentions (f.rectangular row mem)
      fun column mentioned => own column (List.mem_eraseDups.2 mentioned)
    exact Predicate.passes_isNull done (Predicate.isTruth_of_judges judges done)

/-- **`filter_partition`**: a predicate whose root is a comparison, a connective or a test for null
shares the rows of a frame out. Each row is kept by the predicate, by its negation or by the test that
it is null, and by no two of them. Negation exchanges conjunction and disjunction, and gives the
opposite of a comparison, on operands of any kind and where an operand has no value. -/
theorem filter_partition :
    (∀ (f : Frame) (p : Predicate), p.Judges → (∀ column ∈ p.columns, column ∈ f.header) →
      ∃ kept rejected unknown : Frame,
        f.filter p = .ok kept ∧ f.filter (.unary .not p) = .ok rejected ∧
        f.filter (.unary .isNull p) = .ok unknown ∧
        (kept.rows ++ rejected.rows ++ unknown.rows).Perm f.rows ∧
        [kept.rows, rejected.rows, unknown.rows].Pairwise List.Disjoint) ∧
    ∀ l r : Predicate,
      (Predicate.unary .not (.binary .and l r)).SameValue (.binary .or (.unary .not l) (.unary .not r)) ∧
      (Predicate.unary .not (.binary .or l r)).SameValue (.binary .and (.unary .not l) (.unary .not r)) ∧
      (Predicate.unary .not (.binary .eq l r)).SameValue (.binary .notEq l r) ∧
      (Predicate.unary .not (.binary .gt l r)).SameValue (.binary .ltEq l r) ∧
      (Predicate.unary .not (.binary .lt l r)).SameValue (.binary .gtEq l r) := by
  constructor
  · intro f p judges own
    obtain ⟨kept, rejected, unknown, hKept, hRejected, hUnknown, keptRows, rejectedRows,
      unknownRows⟩ := filter_verdicts judges own
    refine ⟨kept, rejected, unknown, hKept, hRejected, hUnknown, ?_, ?_⟩
    · rw [keptRows, rejectedRows, unknownRows]
      exact perm_verdicts _ _
    · rw [keptRows, rejectedRows, unknownRows, List.pairwise_cons, List.pairwise_pair]
      refine ⟨fun rows mem => ?_, disjoint_verdicts _ _ (by decide)⟩
      rcases List.mem_pair.1 mem with rfl | rfl
      · exact disjoint_verdicts _ _ (by decide)
      · exact disjoint_verdicts _ _ (by decide)
  · intro l r
    exact ⟨Predicate.sameValue_not_and l r, Predicate.sameValue_not_or l r,
      Predicate.sameValue_not_opposite rfl l r, Predicate.sameValue_not_opposite rfl l r,
      Predicate.sameValue_not_opposite rfl l r⟩

/-- Of three people one is over thirty and has a job, one is not known to be over thirty, and one has
no job. -/
theorem filter_partition_threePeople : ∃ kept rejected unknown : Frame,
    threePeople.filter (.binary .and overThirty hasJob) = .ok kept ∧
    threePeople.filter (.unary .not (.binary .and overThirty hasJob)) = .ok rejected ∧
    threePeople.filter (.unary .isNull (.binary .and overThirty hasJob)) = .ok unknown ∧
    (kept.rows ++ rejected.rows ++ unknown.rows).Perm threePeople.rows ∧
    [kept.rows, rejected.rows, unknown.rows].Pairwise List.Disjoint := by
  have judges : (Predicate.binary .and overThirty hasJob).Judges := rfl
  exact filter_partition.1 threePeople _ judges (by decide)

end Frame

end PrivateQuery
