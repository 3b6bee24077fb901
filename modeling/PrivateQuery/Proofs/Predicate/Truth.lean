import PrivateQuery.Predicate.Basic
import PrivateQuery.Proofs.Outcome

/-!
# Three-valued truth

What a comparison, a connective or a test for null gives is true, false or null, whatever its operands
are (`isTruth_of_judges`). Connectives read an operand that is no boolean as null, so they are told by
when they are true and when they are false (`and_eq_true_iff`, `or_eq_false_iff` and so on). Negation
turns a conjunction into the disjunction of the negations (`not_and`), and a comparison into the
opposite one (`not_opposite`), null and incomparable operands included.
-/
namespace PrivateQuery

/-! ## Truth values -/

namespace Value

/-- A value that is true, false or null. -/
inductive IsTruth : Value → Prop where
  | known (b : Bool) : IsTruth (.boolean b)
  | unknown : IsTruth .null

variable {v w : Value} {b : Bool}

theorem toBool?_eq_some_iff : v.toBool? = some b ↔ v = .boolean b := by
  cases v <;> simp [toBool?]

theorem isNull_eq_true_iff : v.isNull = true ↔ v = .null := by
  cases v <;> simp [isNull]

theorem same_boolean_iff : (v == .boolean b) = true ↔ v = .boolean b := by
  change v.same (.boolean b) = true ↔ _
  cases v <;> simp [same]

namespace IsTruth

theorem ext (hv : v.IsTruth) (hw : w.IsTruth) (known : ∀ b, v = .boolean b ↔ w = .boolean b) :
    v = w := by
  cases hv with
  | known b => exact ((known b).1 rfl).symm
  | unknown =>
    cases hw with
    | known b => exact (known b).2 rfl
    | unknown => rfl

theorem eq_null_iff (hv : v.IsTruth) : v = .null ↔ v ≠ .boolean true ∧ v ≠ .boolean false := by
  cases hv with
  | known b => cases b <;> simp
  | unknown => simp

end IsTruth

end Value

/-! ## Operators of one operand -/

namespace UnaryOperator

variable {v : Value} {b : Bool}

/-- Whether an operator gives a truth value of every operand. -/
def judges : UnaryOperator → Bool
  | not | isNull | isNotNull => true
  | opposite => false

theorem isTruth_of_judges {op : UnaryOperator} (judges : op.judges = true) (v : Value) :
    (op.apply v).IsTruth := by
  cases op with
  | opposite => cases judges
  | not => cases v <;> constructor
  | isNull => exact .known _
  | isNotNull => exact .known _

theorem not_eq_boolean_iff : not.apply v = .boolean b ↔ v = .boolean !b := by
  cases v <;> simp [apply, Bool.not_eq_eq_eq_not]

theorem not_eq_null_iff (truth : v.IsTruth) : not.apply v = .null ↔ v = .null := by
  cases truth <;> simp [apply]

theorem isNull_eq_true_iff : isNull.apply v = .boolean true ↔ v = .null := by
  simp [apply, Value.isNull_eq_true_iff]

end UnaryOperator

/-! ## Operators of two operands -/

namespace BinaryOperator

variable {l r : Value}

/-- Whether an operator gives a truth value of all operands. -/
def judges : BinaryOperator → Bool
  | gt | lt | gtEq | ltEq | eq | notEq | and | or => true
  | plus | minus | multiply | divide | modulo => false

theorem isTruth_ordered (l r : Value) (holds : Ordering → Bool) : (ordered l r holds).IsTruth := by
  unfold ordered
  split
  · exact .known _
  · exact .unknown

theorem isTruth_conjunction (l r : Option Bool) : (conjunction l r).IsTruth := by
  unfold conjunction
  split <;> constructor

theorem isTruth_disjunction (l r : Option Bool) : (disjunction l r).IsTruth := by
  unfold disjunction
  split <;> constructor

theorem isTruth_of_judges {op : BinaryOperator} (judges : op.judges = true) (l r : Value) :
    (op.apply l r).IsTruth := by
  have present : (op.onPresent l r).IsTruth := by
    cases op with
    | eq => exact .known _
    | notEq => exact .known _
    | gt => exact isTruth_ordered l r _
    | lt => exact isTruth_ordered l r _
    | gtEq => exact isTruth_ordered l r _
    | ltEq => exact isTruth_ordered l r _
    | and => exact isTruth_conjunction _ _
    | or => exact isTruth_disjunction _ _
    | plus => cases judges
    | minus => cases judges
    | multiply => cases judges
    | divide => cases judges
    | modulo => cases judges
  unfold apply
  split
  · exact isTruth_conjunction _ _
  · exact isTruth_disjunction _ _
  · split
    · exact .unknown
    · exact present

/-! ### Connectives -/

theorem conjunction_eq_true_iff {a b : Option Bool} :
    conjunction a b = .boolean true ↔ a = some true ∧ b = some true := by
  unfold conjunction
  split <;> simp_all

theorem conjunction_eq_false_iff {a b : Option Bool} :
    conjunction a b = .boolean false ↔ a = some false ∨ b = some false := by
  unfold conjunction
  split <;> simp_all

theorem disjunction_eq_true_iff {a b : Option Bool} :
    disjunction a b = .boolean true ↔ a = some true ∨ b = some true := by
  unfold disjunction
  split <;> simp_all

theorem disjunction_eq_false_iff {a b : Option Bool} :
    disjunction a b = .boolean false ↔ a = some false ∧ b = some false := by
  unfold disjunction
  split <;> simp_all

theorem and_eq_true_iff :
    and.apply l r = .boolean true ↔ l = .boolean true ∧ r = .boolean true := by
  rw [apply, conjunction_eq_true_iff, Value.toBool?_eq_some_iff, Value.toBool?_eq_some_iff]

theorem and_eq_false_iff :
    and.apply l r = .boolean false ↔ l = .boolean false ∨ r = .boolean false := by
  rw [apply, conjunction_eq_false_iff, Value.toBool?_eq_some_iff, Value.toBool?_eq_some_iff]

theorem or_eq_true_iff :
    or.apply l r = .boolean true ↔ l = .boolean true ∨ r = .boolean true := by
  rw [apply, disjunction_eq_true_iff, Value.toBool?_eq_some_iff, Value.toBool?_eq_some_iff]

theorem or_eq_false_iff :
    or.apply l r = .boolean false ↔ l = .boolean false ∧ r = .boolean false := by
  rw [apply, disjunction_eq_false_iff, Value.toBool?_eq_some_iff, Value.toBool?_eq_some_iff]

/-- A conjunction is false where the disjunction of the negations is true, and the other way. -/
theorem not_and (l r : Value) : UnaryOperator.not.apply (and.apply l r) =
    or.apply (UnaryOperator.not.apply l) (UnaryOperator.not.apply r) := by
  refine Value.IsTruth.ext (UnaryOperator.isTruth_of_judges rfl _) (isTruth_of_judges rfl _ _) fun b => ?_
  cases b <;> simp [UnaryOperator.not_eq_boolean_iff, and_eq_true_iff, and_eq_false_iff,
    or_eq_true_iff, or_eq_false_iff]

theorem not_or (l r : Value) : UnaryOperator.not.apply (or.apply l r) =
    and.apply (UnaryOperator.not.apply l) (UnaryOperator.not.apply r) := by
  refine Value.IsTruth.ext (UnaryOperator.isTruth_of_judges rfl _) (isTruth_of_judges rfl _ _) fun b => ?_
  cases b <;> simp [UnaryOperator.not_eq_boolean_iff, and_eq_true_iff, and_eq_false_iff,
    or_eq_true_iff, or_eq_false_iff]

/-! ### Comparisons -/

/-- The comparison that is false where a comparison is true. -/
def opposite? : BinaryOperator → Option BinaryOperator
  | eq => some notEq
  | notEq => some eq
  | gt => some ltEq
  | ltEq => some gt
  | lt => some gtEq
  | gtEq => some lt
  | and | or | plus | minus | multiply | divide | modulo => none

/-- A comparison is null if an operand is. -/
theorem apply_comparison {op : BinaryOperator} (comparison : op.opposite? ≠ none) (l r : Value) :
    op.apply l r = if l.isNull || r.isNull then .null else op.onPresent l r := by
  cases op with
  | and => exact absurd rfl comparison
  | or => exact absurd rfl comparison
  | _ => rfl

theorem apply_comparison_eq_boolean_iff {op : BinaryOperator} (comparison : op.opposite? ≠ none)
    {b : Bool} : op.apply l r = .boolean b ↔
      l ≠ .null ∧ r ≠ .null ∧ op.onPresent l r = .boolean b := by
  rw [apply_comparison comparison]
  simp only [ne_eq, ← Value.isNull_eq_true_iff]
  cases l.isNull <;> cases r.isNull <;> simp

theorem not_ordered {holds fails : Ordering → Bool} (opposite : ∀ o, fails o = !holds o)
    (l r : Value) : UnaryOperator.not.apply (ordered l r holds) = ordered l r fails := by
  unfold ordered
  cases l.compare? r with
  | none => rfl
  | some o => simp [UnaryOperator.apply, opposite]

/-- **`not_opposite`**: the negation of a comparison is the opposite one. Both are null if an operand
is. Of operands that cannot be compared an ordering and its opposite are null as well, equality is
false and its opposite true. -/
theorem not_opposite {op op' : BinaryOperator} (opposite : op.opposite? = some op') (l r : Value) :
    UnaryOperator.not.apply (op.apply l r) = op'.apply l r := by
  have back : op'.opposite? ≠ none := by
    cases op <;> cases opposite <;> decide
  have present : UnaryOperator.not.apply (op.onPresent l r) = op'.onPresent l r := by
    cases op <;> cases opposite
    case gt => exact not_ordered (by decide) l r
    case ltEq => exact not_ordered (by decide) l r
    case lt => exact not_ordered (by decide) l r
    case gtEq => exact not_ordered (by decide) l r
    case eq => rfl
    case notEq => exact congrArg Value.boolean (Bool.not_not _)
  rw [apply_comparison (by simp [opposite]), apply_comparison back]
  split
  · rfl
  · exact present

/-- Equality is true of values that are there and compare equal. -/
theorem eq_eq_true_iff : eq.apply l r = .boolean true ↔
    l ≠ .null ∧ r ≠ .null ∧ l.compare? r = some .eq := by
  rw [apply_comparison_eq_boolean_iff (by decide), onPresent]
  simp

/-- Equality is false of values that are there and do not, those that cannot be compared included. -/
theorem eq_eq_false_iff : eq.apply l r = .boolean false ↔
    l ≠ .null ∧ r ≠ .null ∧ l.compare? r ≠ some .eq := by
  rw [apply_comparison_eq_boolean_iff (by decide), onPresent]
  simp

end BinaryOperator

/-! ## Predicates -/

namespace Predicate

variable {header : List String} {row : List Value} {p l r : Predicate} {v : Value}

theorem value_unary_eq_ok_iff {op : UnaryOperator} :
    (unary op p).value header row = .ok v ↔ ∃ x, p.value header row = .ok x ∧ op.apply x = v := by
  simp only [value, bind_eq_ok, pure_eq_ok]

theorem value_binary_eq_ok_iff {op : BinaryOperator} :
    (binary op l r).value header row = .ok v ↔
      ∃ x y, l.value header row = .ok x ∧ r.value header row = .ok y ∧ op.apply x y = v := by
  simp only [value, bind_eq_ok, pure_eq_ok]
  constructor
  · rintro ⟨x, left, y, right, same⟩
    exact ⟨x, y, left, right, same⟩
  · rintro ⟨x, y, left, right, same⟩
    exact ⟨x, left, y, right, same⟩

theorem value_unary (op : UnaryOperator) (operand : p.value header row = .ok v) :
    (unary op p).value header row = .ok (op.apply v) :=
  value_unary_eq_ok_iff.2 ⟨v, operand, rfl⟩

theorem value_binary {w : Value} (op : BinaryOperator) (left : l.value header row = .ok v)
    (right : r.value header row = .ok w) : (binary op l r).value header row = .ok (op.apply v w) :=
  value_binary_eq_ok_iff.2 ⟨v, w, left, right, rfl⟩

/-- A predicate whose root is a comparison, a connective or a test for null. -/
def Judges : Predicate → Prop
  | unary op _ => op.judges = true
  | binary op _ _ => op.judges = true
  | column _ | literal _ => False

theorem isTruth_of_judges (judges : p.Judges) (done : p.value header row = .ok v) :
    v.IsTruth := by
  cases p with
  | column name => cases judges
  | literal v => cases judges
  | unary op operand =>
    obtain ⟨x, -, rfl⟩ := value_unary_eq_ok_iff.1 done
    exact UnaryOperator.isTruth_of_judges judges x
  | binary op left right =>
    obtain ⟨x, y, -, -, rfl⟩ := value_binary_eq_ok_iff.1 done
    exact BinaryOperator.isTruth_of_judges judges x y

/-- Two predicates have the same value on every row, or fail in the same way. -/
def SameValue (p q : Predicate) : Prop :=
  ∀ header row, p.value header row = q.value header row

theorem value_not_binary (op : BinaryOperator) (l r : Predicate) :
    (unary .not (binary op l r)).value header row = do
      let x ← l.value header row
      let y ← r.value header row
      return UnaryOperator.not.apply (op.apply x y) := by
  simp only [value, bind_assoc, pure_bind]

theorem value_binary_not (op : BinaryOperator) (l r : Predicate) :
    (binary op (unary .not l) (unary .not r)).value header row = do
      let x ← l.value header row
      let y ← r.value header row
      return op.apply (UnaryOperator.not.apply x) (UnaryOperator.not.apply y) := by
  simp only [value, bind_assoc, pure_bind]

theorem sameValue_not_and (l r : Predicate) :
    (unary .not (binary .and l r)).SameValue (binary .or (unary .not l) (unary .not r)) := by
  intro header row
  simp only [value_not_binary, value_binary_not, BinaryOperator.not_and]

theorem sameValue_not_or (l r : Predicate) :
    (unary .not (binary .or l r)).SameValue (binary .and (unary .not l) (unary .not r)) := by
  intro header row
  simp only [value_not_binary, value_binary_not, BinaryOperator.not_or]

theorem sameValue_not_opposite {op op' : BinaryOperator} (opposite : op.opposite? = some op')
    (l r : Predicate) : (unary .not (binary op l r)).SameValue (binary op' l r) := by
  intro header row
  rw [value_not_binary]
  simp only [value, BinaryOperator.not_opposite opposite]

end Predicate

end PrivateQuery
