import PrivateQuery.Proofs.Predicate.Columns
import PrivateQuery.Proofs.Predicate.Truth

/-!
# Lists and ranges

A list is written out as a disjunction of equalities and a range as a conjunction of two comparisons
(`toPredicate_among`, `toPredicate_between`). Their parts are read in reading order, and the first one
that means nothing is reported (`toPredicate_among_eq_error_iff`). On a row the disjunction is true
if one of the equalities is, and false if all of them are (`orEquals_eq_true_iff`,
`orEquals_eq_false_iff`). So a value is among others, or apart from them, or neither is known
(`among_between_answers`).
-/
namespace PrivateQuery

/-! ## Equality with one of several values -/

section
variable {v w a : Value} {ws : List Value}

/-- A truth value, or that of one more equality. -/
def orEquals (v a w : Value) : Value :=
  BinaryOperator.or.apply a (BinaryOperator.eq.apply v w)

theorem isTruth_orEquals (truth : a.IsTruth) : (ws.foldl (orEquals v) a).IsTruth := by
  induction ws generalizing a with
  | nil => exact truth
  | cons w ws ih => exact ih (BinaryOperator.isTruth_of_judges rfl a _)

theorem orEquals_eq_true_iff : ws.foldl (orEquals v) a = .boolean true ↔
    a = .boolean true ∨ ∃ w ∈ ws, BinaryOperator.eq.apply v w = .boolean true := by
  induction ws generalizing a with
  | nil => simp
  | cons w ws ih =>
    rw [List.foldl_cons, ih, orEquals, BinaryOperator.or_eq_true_iff, or_assoc,
      List.exists_mem_cons_iff]

theorem orEquals_eq_false_iff : ws.foldl (orEquals v) a = .boolean false ↔
    a = .boolean false ∧ ∀ w ∈ ws, BinaryOperator.eq.apply v w = .boolean false := by
  induction ws generalizing a with
  | nil => simp
  | cons w ws ih =>
    rw [List.foldl_cons, ih, orEquals, BinaryOperator.or_eq_false_iff, and_assoc,
      List.forall_mem_cons]

end

/-! ## Answers -/

/-- A three-valued answer to a question that has reasons for yes and reasons for no: null where there
is neither. The negated question has the opposite answers. -/
structure Answers (negated : Bool) (yes no : Prop) (answer : Value) : Prop where
  yes_iff : answer = .boolean (!negated) ↔ yes
  no_iff : answer = .boolean negated ↔ no
  null_iff : answer = .null ↔ ¬ yes ∧ ¬ no

theorem answers_of_truth {a : Value} {yes no : Prop} (truth : a.IsTruth)
    (yes_iff : a = .boolean true ↔ yes) (no_iff : a = .boolean false ↔ no) (negated : Bool) :
    Answers negated yes no (if negated then UnaryOperator.not.apply a else a) := by
  have null_iff : a = .null ↔ ¬ yes ∧ ¬ no := by
    rw [truth.eq_null_iff, ne_eq, ne_eq, yes_iff, no_iff]
  cases negated with
  | false => exact ⟨yes_iff, no_iff, null_iff⟩
  | true =>
    refine ⟨?_, ?_, (UnaryOperator.not_eq_null_iff truth).trans null_iff⟩
    · exact UnaryOperator.not_eq_boolean_iff.trans yes_iff
    · exact UnaryOperator.not_eq_boolean_iff.trans no_iff

/-- A value that is there equals one of several. -/
def Value.Among (v : Value) (ws : List Value) : Prop :=
  v ≠ .null ∧ ∃ w ∈ ws, w ≠ .null ∧ v.compare? w = some .eq

/-- A value that is there equals none of several, which are all there. -/
def Value.Apart (v : Value) (ws : List Value) : Prop :=
  v ≠ .null ∧ ∀ w ∈ ws, w ≠ .null ∧ v.compare? w ≠ some .eq

/-- Equality with one of at least one value. -/
theorem answers_orEquals (v w : Value) (ws : List Value) (negated : Bool) :
    let equals := ws.foldl (orEquals v) (BinaryOperator.eq.apply v w)
    Answers negated (v.Among (w :: ws)) (v.Apart (w :: ws))
      (if negated then UnaryOperator.not.apply equals else equals) := by
  refine answers_of_truth (isTruth_orEquals (BinaryOperator.isTruth_of_judges rfl v w)) ?_ ?_ negated
  · rw [orEquals_eq_true_iff,
      ← List.exists_mem_cons_iff (p := fun u => BinaryOperator.eq.apply v u = .boolean true)]
    simp only [BinaryOperator.eq_eq_true_iff]
    constructor
    · rintro ⟨u, mem, there, known, equal⟩
      exact ⟨there, u, mem, known, equal⟩
    · rintro ⟨there, u, mem, known, equal⟩
      exact ⟨u, mem, there, known, equal⟩
  · rw [orEquals_eq_false_iff,
      ← List.forall_mem_cons (p := fun u => BinaryOperator.eq.apply v u = .boolean false)]
    simp only [BinaryOperator.eq_eq_false_iff]
    constructor
    · intro each
      exact ⟨(each w List.mem_cons_self).1, fun u mem => (each u mem).2⟩
    · rintro ⟨there, each⟩ u mem
      exact ⟨there, each u mem⟩

/-! ## What lists and ranges mean -/

namespace Predicate

/-- A predicate, or equality with one more operand. -/
def orEquals (x p y : Predicate) : Predicate := .binary .or p (.binary .eq x y)

variable {header : List String} {row : List Value} {x p : Predicate} {ys : List Predicate}
  {v a : Value} {ws : List Value}

theorem value_orEquals (operand : x.value header row = .ok v) (first : p.value header row = .ok a)
    (items : ys.mapM (value header row) = .ok ws) :
    (ys.foldl (orEquals x) p).value header row = .ok (ws.foldl (PrivateQuery.orEquals v) a) := by
  induction ys generalizing p a ws with
  | nil =>
    obtain rfl := Except.ok.inj items
    exact first
  | cons y ys ih =>
    obtain ⟨w, ws, item, rest, rfl⟩ := mapM_cons_eq_ok.1 items
    rw [List.foldl_cons, List.foldl_cons]
    exact ih (value_binary .or first (value_binary .eq operand item)) rest

theorem value_negateIf (negated : Bool) (done : p.value header row = .ok a) :
    (Phrase.negateIf negated p).value header row =
      .ok (if negated then UnaryOperator.not.apply a else a) := by
  cases negated with
  | false => exact done
  | true => exact value_unary .not done

/-- A disjunction of equalities answers whether a value is among others. -/
theorem value_among {y : Predicate} {w : Value} (operand : x.value header row = .ok v)
    (item : y.value header row = .ok w) (items : ys.mapM (value header row) = .ok ws)
    (negated : Bool) :
    ∃ answer, (Phrase.negateIf negated (ys.foldl (orEquals x) (.binary .eq x y))).value header row =
        .ok answer ∧
      Answers negated (v.Among (w :: ws)) (v.Apart (w :: ws)) answer := by
  have first := value_binary .eq operand item
  exact ⟨_, value_negateIf negated (value_orEquals operand first items),
    answers_orEquals v w ws negated⟩

theorem value_between {l r : Predicate} {b : Value} (left : l.value header row = .ok a)
    (right : r.value header row = .ok b) (negated : Bool) :
    ∃ answer, (Phrase.negateIf negated (.binary .and l r)).value header row = .ok answer ∧
      Answers negated (a = .boolean true ∧ b = .boolean true)
        (a = .boolean false ∨ b = .boolean false) answer := by
  exact ⟨_, value_negateIf negated (value_binary .and left right),
    answers_of_truth (BinaryOperator.isTruth_of_judges rfl a b) BinaryOperator.and_eq_true_iff
      BinaryOperator.and_eq_false_iff negated⟩

end Predicate

namespace Phrase

theorem orAmong_eq (x p : Predicate) (items : List Phrase) : orAmong x p items = do
    let ys ← items.mapM toPredicate
    return ys.foldl (Predicate.orEquals x) p := by
  induction items generalizing p with
  | nil => rfl
  | cons item items ih =>
    simp only [orAmong, List.mapM_cons, ih, bind_assoc, pure_bind, List.foldl_cons]
    rfl

theorem toPredicate_among (negated : Bool) (operand item : Phrase) (items : List Phrase) :
    (among negated operand (item :: items)).toPredicate = do
      let x ← operand.toPredicate
      let y ← item.toPredicate
      let ys ← items.mapM toPredicate
      return negateIf negated (ys.foldl (Predicate.orEquals x) (.binary .eq x y)) := by
  simp only [toPredicate, amongAny, orAmong_eq, bind_assoc, pure_bind]

theorem toPredicate_between (negated : Bool) (operand low high : Phrase) :
    (between negated operand low high).toPredicate = do
      let x ← operand.toPredicate
      let l ← low.toPredicate
      let h ← high.toPredicate
      return negateIf negated (.binary .and (.binary .gtEq x l) (.binary .ltEq x h)) := by
  simp only [toPredicate]

/-- A row has a cell under each of the names of a phrase. -/
def Resolves (header : List String) (row : List Value) (phrase : Phrase) : Prop :=
  ∀ name ∈ phrase.names, name ∈ header ∧ header.idxOf name < row.length

theorem value_of_resolves {header : List String} {row : List Value} {phrase : Phrase}
    {p : Predicate} (meant : phrase.toPredicate = .ok p) (resolves : phrase.Resolves header row) :
    ∃ v, p.value header row = .ok v := by
  rw [Predicate.value_eq_ok_iff, columns_of_toPredicate meant]
  exact fun name mem => resolves name (List.mem_eraseDups.1 mem)

theorem values_of_resolve {header : List String} {row : List Value} {items : List Phrase}
    {ys : List Predicate} (meant : items.mapM toPredicate = .ok ys)
    (resolve : ∀ item ∈ items, item.Resolves header row) :
    ∃ ws, ys.mapM (Predicate.value header row) = .ok ws := by
  refine exists_mapM fun y mem => ?_
  obtain ⟨item, own, meantItem⟩ := exists_of_mapM meant mem
  exact value_of_resolves meantItem (resolve item own)

theorem toPredicate_among_eq_error_iff {negated : Bool} {operand item : Phrase}
    {items : List Phrase} {e : PredicateError} :
    (among negated operand (item :: items)).toPredicate = .error e ↔
      FirstError toPredicate (operand :: item :: items) e := by
  rw [← mapM_eq_error_iff, toPredicate_among]
  simp only [List.mapM_cons, bind_eq_error, pure_ne_error, and_false, exists_false, or_false]

theorem toPredicate_between_eq_error_iff {negated : Bool} {operand low high : Phrase}
    {e : PredicateError} :
    (between negated operand low high).toPredicate = .error e ↔
      FirstError toPredicate [operand, low, high] e := by
  rw [← mapM_eq_error_iff, toPredicate_between]
  simp only [List.mapM_cons, List.mapM_nil, bind_eq_error, pure_ne_error, and_false, exists_false,
    or_false]

end Phrase

/-- **`among_between_answers`**: a list and a range fail to mean something only for the first of
their parts that does, in reading order. Otherwise what they mean has a value on every row that has
the columns of the parts: whether the operand is among the items or apart from them, and whether both
comparisons are true or one of them is false. Where neither is the case it is null, and where the phrase
is negated the answers are exchanged. -/
theorem among_between_answers (negated : Bool) (operand : Phrase) :
    (∀ (item : Phrase) (items : List Phrase),
      (∀ e, (Phrase.among negated operand (item :: items)).toPredicate = .error e ↔
        FirstError Phrase.toPredicate (operand :: item :: items) e) ∧
      ∀ x ys, operand.toPredicate = .ok x → (item :: items).mapM Phrase.toPredicate = .ok ys →
        ∃ p, (Phrase.among negated operand (item :: items)).toPredicate = .ok p ∧
        ∀ header row, (∀ part ∈ operand :: item :: items, part.Resolves header row) →
          ∃ v ws answer, x.value header row = .ok v ∧
            ys.mapM (Predicate.value header row) = .ok ws ∧ p.value header row = .ok answer ∧
            Answers negated (v.Among ws) (v.Apart ws) answer) ∧
    ∀ low high : Phrase,
      (∀ e, (Phrase.between negated operand low high).toPredicate = .error e ↔
        FirstError Phrase.toPredicate [operand, low, high] e) ∧
      ∀ x l h, operand.toPredicate = .ok x → low.toPredicate = .ok l → high.toPredicate = .ok h →
        ∃ p, (Phrase.between negated operand low high).toPredicate = .ok p ∧
        ∀ header row, (∀ part ∈ [operand, low, high], part.Resolves header row) →
          ∃ above below answer, (Predicate.binary .gtEq x l).value header row = .ok above ∧
            (Predicate.binary .ltEq x h).value header row = .ok below ∧
            p.value header row = .ok answer ∧
            Answers negated (above = .boolean true ∧ below = .boolean true)
              (above = .boolean false ∨ below = .boolean false) answer := by
  constructor
  · intro item items
    refine ⟨fun e => Phrase.toPredicate_among_eq_error_iff, fun x ys meant meants => ?_⟩
    obtain ⟨y, ys, meantItem, meantItems, rfl⟩ := mapM_cons_eq_ok.1 meants
    refine ⟨_, by rw [Phrase.toPredicate_among, meant, meantItem, meantItems]; rfl, ?_⟩
    intro header row resolve
    simp only [List.forall_mem_cons] at resolve
    obtain ⟨v, operandValue⟩ := Phrase.value_of_resolves meant resolve.1
    obtain ⟨w, itemValue⟩ := Phrase.value_of_resolves meantItem resolve.2.1
    obtain ⟨ws, itemValues⟩ := Phrase.values_of_resolve meantItems resolve.2.2
    have values := mapM_cons_eq_ok.2 ⟨w, ws, itemValue, itemValues, rfl⟩
    obtain ⟨answer, done, answers⟩ :=
      Predicate.value_among operandValue itemValue itemValues negated
    exact ⟨v, w :: ws, answer, operandValue, values, done, answers⟩
  · intro low high
    refine ⟨fun e => Phrase.toPredicate_between_eq_error_iff, fun x l h meant meantL meantH => ?_⟩
    refine ⟨_, by rw [Phrase.toPredicate_between, meant, meantL, meantH]; rfl, ?_⟩
    intro header row resolve
    simp only [List.forall_mem_cons] at resolve
    obtain ⟨v, operandValue⟩ := Phrase.value_of_resolves meant resolve.1
    obtain ⟨a, lowValue⟩ := Phrase.value_of_resolves meantL resolve.2.1
    obtain ⟨b, highValue⟩ := Phrase.value_of_resolves meantH resolve.2.2.1
    have above := Predicate.value_binary .gtEq operandValue lowValue
    have below := Predicate.value_binary .ltEq operandValue highValue
    obtain ⟨answer, done, answers⟩ := Predicate.value_between above below negated
    exact ⟨_, _, answer, above, below, done, answers⟩

/-- A job that is not among others cannot be told where one of them is missing. An age above a range is
outside of it even if its lower end is missing. -/
theorem among_between_answers_missing :
    let header := ["job", "trade", "age", "limit"]
    let row := [.text "Smith", .null, .integer 42, .null]
    (∃ p, (Phrase.among true (.name "job") [.literal (.text "Baker"), .name "trade"]).toPredicate =
      .ok p ∧ p.value header row = .ok .null) ∧
    ∃ p, (Phrase.between false (.name "age") (.name "limit") (.number "30")).toPredicate = .ok p ∧
      p.value header row = .ok (.boolean false) := by
  intro header row
  constructor
  · obtain ⟨-, means⟩ := (among_between_answers true (.name "job")).1 (.literal (.text "Baker"))
      [.name "trade"]
    obtain ⟨p, meant, values⟩ := means (.column "job") [.literal (.text "Baker"), .column "trade"]
      rfl rfl
    have resolve : ∀ part ∈ [Phrase.name "job", .literal (.text "Baker"), .name "trade"],
        ∀ name ∈ part.names, name ∈ header ∧ header.idxOf name < row.length := by decide
    obtain ⟨v, ws, answer, operand, items, done, answers⟩ := values header row resolve
    obtain rfl : .text "Smith" = v := Except.ok.inj operand
    obtain rfl : [.text "Baker", .null] = ws := Except.ok.inj items
    refine ⟨p, meant, ?_⟩
    rw [done, answers.null_iff.2 ⟨?_, ?_⟩]
    · rintro ⟨-, w, mem, there, equal⟩
      rcases List.mem_pair.1 mem with rfl | rfl
      · exact absurd equal (by decide)
      · exact there rfl
    · rintro ⟨-, apart⟩
      exact (apart .null (by simp)).1 rfl
  · obtain ⟨-, means⟩ := (among_between_answers false (.name "age")).2 (.name "limit") (.number "30")
    obtain ⟨p, meant, values⟩ := means (.column "age") (.column "limit") (.literal (.integer 30))
      rfl rfl (by rfl)
    have resolve : ∀ part ∈ [Phrase.name "age", .name "limit", .number "30"],
        ∀ name ∈ part.names, name ∈ header ∧ header.idxOf name < row.length := by decide
    obtain ⟨a, b, answer, above, below, done, answers⟩ := values header row resolve
    obtain rfl : .boolean false = b := Except.ok.inj below
    refine ⟨p, meant, ?_⟩
    rw [done, answers.no_iff.2 (.inr rfl)]

end PrivateQuery
