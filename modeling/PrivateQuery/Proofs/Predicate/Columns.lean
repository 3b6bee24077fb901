import Mathlib.Data.List.Basic
import PrivateQuery.Predicate.Phrase
import PrivateQuery.Proofs.Outcome
import PrivateQuery.Proofs.Predicate.Trees

/-!
# Columns of predicates

What a phrase means mentions the names of the phrase: lists and ranges repeat their first operand, but
that does not change the order in which names appear first (`columns_of_toPredicate`). A predicate has
a value exactly if all of its columns have a cell (`value_eq_ok_iff`), and otherwise the first one that
has none is reported (`value_eq_error_iff`). So its columns tell all there is to know of the rows that
it can be evaluated on (`visits_of_toPredicate`).
-/
namespace PrivateQuery

/-! ## First appearances -/

section
variable {α : Type} [BEq α] [LawfulBEq α] {as as' bs bs' cs : List α}

theorem eraseDups_filter (f : α → Bool) (as : List α) :
    (as.filter f).eraseDups = as.eraseDups.filter f := by
  -- Shorter lists come from taking out the repetitions of the first element.
  induction length : as.length using Nat.strongRecOn generalizing as f with
  | ind n ih =>
    cases as with
    | nil => rfl
    | cons a as =>
      have shorter : (as.filter fun b => !b == a).length < n := by
        have := List.length_filter_le (fun b => !b == a) as
        rw [List.length_cons] at length
        omega
      have rest := ih _ shorter f _ rfl
      rw [List.eraseDups_cons]
      by_cases first : f a = true
      · rw [List.filter_cons_of_pos first, List.filter_cons_of_pos first, List.eraseDups_cons,
          ← rest, List.filter_filter, List.filter_filter]
        simp only [Bool.and_comm]
      · rw [List.filter_cons_of_neg first, List.filter_cons_of_neg first, ← rest, List.filter_filter]
        congr 1
        refine List.filter_congr fun b _ => ?_
        by_cases same : b = a
        · simp [same, first]
        · simp [same]

theorem find?_eraseDups (f : α → Bool) (as : List α) : as.eraseDups.find? f = as.find? f := by
  rw [← List.head?_filter, ← List.head?_filter, ← eraseDups_filter]
  cases as.filter f with
  | nil => rfl
  | cons a as => rw [List.eraseDups_cons, List.head?_cons, List.head?_cons]

theorem eraseDups_append_of_subset (known : bs ⊆ as) : (as ++ bs).eraseDups = as.eraseDups := by
  have none : bs.removeAll as = [] := by
    simpa [List.removeAll, List.filter_eq_nil_iff] using fun a (member : a ∈ bs) => known member
  rw [List.eraseDups_append, none, List.eraseDups_nil, List.append_nil]

theorem eraseDups_append_congr (first : as.eraseDups = as'.eraseDups)
    (second : bs.eraseDups = bs'.eraseDups) : (as ++ bs).eraseDups = (as' ++ bs').eraseDups := by
  have same : bs.removeAll as = bs.removeAll as' := by
    refine List.filter_congr fun b _ => ?_
    have member : b ∈ as ↔ b ∈ as' := by rw [← List.mem_eraseDups, first, List.mem_eraseDups]
    simp [member]
  rw [List.eraseDups_append, List.eraseDups_append, same, first, List.removeAll, List.removeAll,
    eraseDups_filter, eraseDups_filter, second]

end

/-! ## Names of phrases -/

namespace Phrase

mutual

/-- The names of a phrase in reading order. What is looked for in an empty list is not looked at. -/
def names : Phrase → List String
  | name text => [text]
  | literal _ | number _ | unsupported _ | foreign => []
  | nested inner => inner.names
  | unary _ operand | isNull _ operand | isTruth _ operand => operand.names
  | binary _ left right => left.names ++ right.names
  | among _ operand items => if items.isEmpty then [] else operand.names ++ namesAll items
  | between _ operand low high => operand.names ++ low.names ++ high.names

def namesAll : List Phrase → List String
  | [] => []
  | item :: items => item.names ++ namesAll items

end

theorem mentions_negateIf (negated : Bool) (p : Predicate) :
    (negateIf negated p).mentions = p.mentions := by
  cases negated <;> rfl

theorem mentions_ofNumber {text : String} {p : Predicate} (h : ofNumber text = .ok p) :
    p.mentions = [] := by
  unfold ofNumber at h
  split at h
  · obtain rfl := Except.ok.inj h
    rfl
  · split at h
    · obtain rfl := Except.ok.inj h
      rfl
    · simp at h

mutual

/-- **`columns_of_toPredicate`**: what a phrase means has the columns that the phrase names, in the
order in which they appear first. -/
theorem columns_of_toPredicate : ∀ {phrase : Phrase} {p : Predicate},
    phrase.toPredicate = .ok p → p.columns = phrase.names.eraseDups
  | name text, p, h => by
    rw [toPredicate, Except.ok.injEq] at h
    subst h
    rfl
  | literal v, p, h => by
    rw [toPredicate, Except.ok.injEq] at h
    subst h
    rfl
  | number text, p, h => by
    rw [Predicate.columns, mentions_ofNumber h]
    rfl
  | nested inner, p, h => by
    change p.columns = inner.names.eraseDups
    exact columns_of_toPredicate h
  | unary mark operand, p, h => by
    rw [toPredicate, bind_eq_ok] at h
    obtain ⟨x, meant, h⟩ := h
    have same := columns_of_toPredicate meant
    cases mark <;> simp only [pure_eq_ok, reduceCtorEq] at h <;> subst h <;> exact same
  | binary mark left right, p, h => by
    simp only [toPredicate, bind_eq_ok] at h
    obtain ⟨l, meantL, r, meantR, h⟩ := h
    have same := eraseDups_append_congr (columns_of_toPredicate meantL)
      (columns_of_toPredicate meantR)
    cases mark <;> simp only [pure_eq_ok, reduceCtorEq] at h
    subst h
    exact same
  | isNull negated operand, p, h => by
    simp only [toPredicate, bind_eq_ok, pure_eq_ok] at h
    obtain ⟨x, meant, rfl⟩ := h
    change x.columns = operand.names.eraseDups
    exact columns_of_toPredicate meant
  | isTruth truth operand, p, h => by
    simp only [toPredicate, bind_eq_ok, pure_eq_ok] at h
    obtain ⟨x, meant, rfl⟩ := h
    have same := columns_of_toPredicate meant
    rwa [Predicate.columns, Predicate.mentions, Predicate.mentions, List.append_nil, names]
  | among negated operand [], p, h => by
    simp only [toPredicate, amongAny, bind_eq_ok, pure_eq_ok] at h
    obtain ⟨x, -, q, found, rfl⟩ := h
    obtain rfl := Except.ok.inj found
    rw [Predicate.columns, mentions_negateIf]
    rfl
  | among negated operand (item :: items), p, h => by
    simp only [toPredicate, amongAny, bind_eq_ok, pure_eq_ok] at h
    obtain ⟨x, meant, q, ⟨y, meantY, found⟩, rfl⟩ := h
    have first := eraseDups_append_congr (columns_of_toPredicate meant)
      (columns_of_toPredicate meantY)
    have rest := columns_of_orAmong found (List.subset_append_left _ _)
    rw [Predicate.columns, mentions_negateIf, ← Predicate.columns, rest, names, namesAll,
      ← List.append_assoc]
    exact eraseDups_append_congr first rfl
  | between negated operand low high, p, h => by
    simp only [toPredicate, bind_eq_ok, pure_eq_ok] at h
    obtain ⟨x, meant, l, meantL, r, meantR, rfl⟩ := h
    have first := eraseDups_append_congr (columns_of_toPredicate meant)
      (columns_of_toPredicate meantL)
    have again : (x.mentions ++ l.mentions ++ x.mentions).eraseDups =
        (x.mentions ++ l.mentions).eraseDups :=
      eraseDups_append_of_subset (List.subset_append_left _ _)
    rw [Predicate.columns, mentions_negateIf, names, Predicate.mentions, Predicate.mentions,
      Predicate.mentions, ← List.append_assoc]
    exact eraseDups_append_congr (again.trans first) (columns_of_toPredicate meantR)
  | unsupported spelling, p, h => by simp [toPredicate] at h
  | foreign, p, h => by simp [toPredicate] at h

/-- Each further item is compared with the same operand, whose columns are known by then. -/
theorem columns_of_orAmong : ∀ {items : List Phrase} {x p q : Predicate},
    orAmong x p items = .ok q → x.mentions ⊆ p.mentions →
      q.columns = (p.mentions ++ namesAll items).eraseDups
  | [], x, p, q, h, _ => by
    rw [orAmong, Except.ok.injEq] at h
    rw [← h, namesAll, List.append_nil, Predicate.columns]
  | item :: items, x, p, q, h, known => by
    rw [orAmong, bind_eq_ok] at h
    obtain ⟨y, meant, h⟩ := h
    have rest := columns_of_orAmong h (List.Subset.trans known (List.subset_append_left _ _))
    have again : (p.mentions ++ x.mentions).eraseDups = p.mentions.eraseDups :=
      eraseDups_append_of_subset known
    rw [rest, namesAll, Predicate.mentions, Predicate.mentions, ← List.append_assoc,
      ← List.append_assoc]
    exact eraseDups_append_congr (eraseDups_append_congr again (columns_of_toPredicate meant)) rfl

end

end Phrase

/-! ## Values -/

namespace Predicate

variable {header header' : List String} {row row' : List Value} {p : Predicate}

theorem cell?_isSome_iff {name : String} : (cell? header row name).isSome = true ↔
    name ∈ header ∧ header.idxOf name < row.length := by
  by_cases own : name ∈ header
  · have found : header.findIdx? (· == name) = some (header.idxOf name) :=
      List.findIdx?_eq_some_iff_findIdx_eq.2 ⟨List.idxOf_lt_length_iff.2 own, rfl⟩
    simp [cell?, found, own]
  · have absent : header.findIdx? (· == name) = none :=
      List.findIdx?_eq_none_iff.2 fun other member => beq_eq_false_iff_ne.2 fun same =>
        own (same ▸ member)
    simp [cell?, absent, own]

/-- The first column that has no cell in a row. -/
def missing? (header : List String) (row : List Value) (p : Predicate) : Option String :=
  p.columns.find? fun name => (cell? header row name).isNone

theorem missing?_eq (p : Predicate) : p.missing? header row =
    p.mentions.find? fun name => (cell? header row name).isNone :=
  find?_eraseDups _ _

/-- Evaluation fails exactly if a column is missing, and reports the first one. -/
theorem value_of_missing? (header : List String) (row : List Value) (p : Predicate) :
    (∃ v, p.missing? header row = none ∧ p.value header row = .ok v) ∨
      ∃ name, p.missing? header row = some name ∧
        p.value header row = .error (.unknownColumn name) := by
  simp only [missing?_eq]
  induction p with
  | column name => cases held : cell? header row name <;> simp [value, mentions, held]
  | literal v => exact .inl ⟨v, rfl, rfl⟩
  | unary op operand ih =>
    rcases ih with ⟨v, none, done⟩ | ⟨name, first, failed⟩
    · exact .inl ⟨op.apply v, none, by rw [value, done]; rfl⟩
    · exact .inr ⟨name, first, by rw [value, failed]; rfl⟩
  | binary op left right ihl ihr =>
    simp only [mentions, List.find?_append]
    rcases ihl with ⟨l, none, doneL⟩ | ⟨name, first, failed⟩
    · rw [none, Option.none_or]
      rcases ihr with ⟨r, none', doneR⟩ | ⟨name, first, failed⟩
      · exact .inl ⟨op.apply l r, none', by rw [value, doneL, doneR]; rfl⟩
      · exact .inr ⟨name, first, by rw [value, doneL, failed]; rfl⟩
    · exact .inr ⟨name, by rw [first, Option.some_or], by rw [value, failed]; rfl⟩

/-- **`value_eq_ok_iff`**: there is a value exactly if every column has a cell. -/
theorem value_eq_ok_iff : (∃ v, p.value header row = .ok v) ↔
    ∀ name ∈ p.columns, name ∈ header ∧ header.idxOf name < row.length := by
  have none : p.missing? header row = none ↔
      ∀ name ∈ p.columns, name ∈ header ∧ header.idxOf name < row.length := by
    simp only [missing?, List.find?_eq_none, ← cell?_isSome_iff, Option.isNone_iff_eq_none,
      Option.isSome_iff_ne_none, ne_eq]
  rw [← none]
  rcases value_of_missing? header row p with ⟨v, absent, done⟩ | ⟨name, first, failed⟩
  · simp [absent, done]
  · simp [first, failed]

/-- **`value_eq_error_iff`**: the only error there can be is that of the first missing column. -/
theorem value_eq_error_iff {e : PredicateError} : p.value header row = .error e ↔
    ∃ name, p.missing? header row = some name ∧ e = .unknownColumn name := by
  rcases value_of_missing? header row p with ⟨v, absent, done⟩ | ⟨name, first, failed⟩
  · simp [absent, done]
  · simp [first, failed, eq_comm]

/-- **`value_congr`**: rows that have the same cells under the columns have the same value, or fail
in the same way. -/
theorem value_congr (cells : ∀ name ∈ p.columns, cell? header row name = cell? header' row' name) :
    p.value header row = p.value header' row' := by
  replace cells : ∀ name ∈ p.mentions, cell? header row name = cell? header' row' name :=
    fun name member => cells name (List.mem_eraseDups.2 member)
  induction p with
  | column name => rw [value, value, cells name (by simp [mentions])]
  | literal v => rfl
  | unary op operand ih => rw [value, value, ih cells]
  | binary op left right ihl ihr =>
    rw [value, value, ihl fun name member => cells name (List.mem_append_left _ member),
      ihr fun name member => cells name (List.mem_append_right _ member)]

end Predicate

/-- **`visits_of_toPredicate`**: what a phrase means has as many operands under each operator as it
takes, so it is displayed and evaluated without regard to their number. Its columns are the names of
the phrase in the order of their first appearance. It has a value exactly on the rows that have a cell
for each of them, otherwise the first column without one is reported, and the value depends on no
other cells. -/
theorem visits_of_toPredicate {phrase : Phrase} {p : Predicate}
    (meant : phrase.toPredicate = .ok p) :
    p.tree.WellFormed ∧ p.tree.accept .display = some p.toString ∧
    (p.tree.accept .mentions).eraseDups = p.columns ∧ p.columns = phrase.names.eraseDups ∧
    (∀ header row,
      p.tree.accept (.evaluate header row) = p.value header row ∧
      ((∃ v, p.value header row = .ok v) ↔
        ∀ name ∈ p.columns, name ∈ header ∧ header.idxOf name < row.length) ∧
      ∀ e, p.value header row = .error e ↔
        ∃ name, p.missing? header row = some name ∧ e = .unknownColumn name) ∧
    ∀ header row header' row',
      (∀ name ∈ p.columns,
        Predicate.cell? header row name = Predicate.cell? header' row' name) →
      p.value header row = p.value header' row' := by
  refine ⟨p.wellFormed_tree, p.accept_display, ?_, Phrase.columns_of_toPredicate meant, ?_, ?_⟩
  · rw [p.accept_mentions, Predicate.columns]
  · intro header row
    exact ⟨p.accept_evaluate header row, Predicate.value_eq_ok_iff,
      fun e => Predicate.value_eq_error_iff⟩
  · intro header row header' row' cells
    exact Predicate.value_congr cells

/-- An age from 18 up to a limit, and a job that is neither of two. -/
def agesAndJobs : Phrase :=
  .binary (.known .and)
    (.between false (.name "age") (.number "18") (.name "limit"))
    (.among true (.name "job") [.literal (.text "Baker"), .name "trade"])

/-- Both ages are compared, and both jobs; a row has to have them all. -/
theorem visits_of_toPredicate_agesAndJobs : ∃ p : Predicate, agesAndJobs.toPredicate = .ok p ∧
    p.tree.WellFormed ∧ p.columns = ["age", "limit", "job", "trade"] ∧
    (∃ v, p.value ["trade", "job", "limit", "age"]
      [.text "Smith", .null, .integer 65, .integer 42] = .ok v) ∧
    p.value ["trade", "job", "limit", "age"] [.text "Smith", .null, .integer 65] =
      .error (.unknownColumn "age") := by
  obtain ⟨p, meant⟩ : ∃ p, agesAndJobs.toPredicate = .ok p := ⟨_, rfl⟩
  obtain ⟨formed, -, -, columns, values, -⟩ := visits_of_toPredicate meant
  have named : p.columns = ["age", "limit", "job", "trade"] := columns.trans (by decide)
  refine ⟨p, meant, formed, named, ?_, ?_⟩
  · refine (values _ _).2.1.2 ?_
    rw [named]
    decide
  · refine (values _ _).2.2 _ |>.2 ⟨"age", ?_, rfl⟩
    rw [Predicate.missing?, named]
    decide

end PrivateQuery
