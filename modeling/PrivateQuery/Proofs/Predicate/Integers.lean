import PrivateQuery.Proofs.Predicate.Truth

/-!
# Integer arithmetic of predicates

An operator on words computes on the unbounded integers and gives null where the result is no word
(`faithful_of_isIntegral`). Null is handed on by every operator, and doubles never come up. So a predicate that
is built of integers gives its exact value, unless one of its parts overflows
(`integer_value_exact`).
-/
namespace PrivateQuery

/-! ## Remainders of words -/

namespace Word

variable {a b : Int64}

/-- The quotient of two words is a word but for the least one by minus one. -/
theorem inRange_quotient_iff (nonzero : b.toInt ≠ 0) : InRange (a.toInt / b.toInt) ↔
    ¬ (a.toInt = -9223372036854775808 ∧ b.toInt = -1) := by
  have wordA := inRange_toInt a
  have wordB := inRange_toInt b
  generalize a.toInt = i at *
  generalize b.toInt = j at *
  have size : (i / j).natAbs ≤ i.natAbs := Int.natAbs_ediv_le_natAbs i j
  have division := Int.mul_ediv_add_emod i j
  have remainder := Int.emod_nonneg i nonzero
  have bound := Int.emod_lt i nonzero
  generalize i / j = q at *
  generalize i % j = r at *
  constructor
  · rintro within ⟨rfl, rfl⟩
    omega
  · intro other
    -- A quotient is no further from zero than the dividend, so only one candidate is no word.
    by_cases last : q = 9223372036854775808
    · subst last
      omega
    · constructor <;> omega

theorem mod?_eq (a b : Int64) : mod? a b =
    if b.toInt = 0 ∨ a.toInt = -9223372036854775808 ∧ b.toInt = -1 then none
    else ofInt? (a.toInt % b.toInt) := by
  unfold mod?
  by_cases zero : b.toInt = 0
  · simp [zero]
  · simp only [zero, false_or, inRange_quotient_iff zero, Decidable.not_not]

end Word

/-! ## Operators -/

namespace BinaryOperator

/-- The operators that take integers to integers. -/
def isIntegral : BinaryOperator → Bool
  | plus | minus | multiply | modulo => true
  | divide | gt | lt | gtEq | ltEq | eq | notEq | and | or => false

/-- The operators on the unbounded integers; there is no remainder by zero. -/
def unbounded? : BinaryOperator → Int → Int → Option Int
  | plus, i, j => some (i + j)
  | minus, i, j => some (i - j)
  | multiply, i, j => some (i * j)
  | modulo, i, j => if j = 0 then none else some (i % j)
  | _, _, _ => none

/-- What no word stands for: a result out of range, a remainder by zero, and the remainder of the
least word by minus one, whose quotient is out of range. -/
def Overflows (op : BinaryOperator) (i j : Int) : Prop :=
  (∃ k, op.unbounded? i j = some k ∧ ¬ Word.InRange k) ∨
    op = modulo ∧ (j = 0 ∨ i = -9223372036854775808 ∧ j = -1)

/-- An operator gives the exact result of two words, or null where it overflows. -/
def Faithful (op : BinaryOperator) (a b : Int64) : Prop :=
  (∃ c : Int64, op.apply (.integer a) (.integer b) = .integer c ∧
    op.unbounded? a.toInt b.toInt = some c.toInt ∧ ¬ op.Overflows a.toInt b.toInt) ∨
  op.apply (.integer a) (.integer b) = .null ∧ op.Overflows a.toInt b.toInt

/-- An operator is faithful if it has an exact result and looks for a word that holds it. -/
theorem faithful_of_computes {op : BinaryOperator} {a b : Int64} {i : Int}
    (result : op.unbounded? a.toInt b.toInt = some i)
    (computes : op.apply (.integer a) (.integer b) =
      ((Word.ofInt? i).map Value.integer).getD .null)
    (plain : ¬ (op = modulo ∧ (b.toInt = 0 ∨ a.toInt = -9223372036854775808 ∧ b.toInt = -1))) :
    op.Faithful a b := by
  rw [Faithful, computes]
  cases held : Word.ofInt? i with
  | none => exact .inr ⟨rfl, .inl ⟨i, result, Word.ofInt?_eq_none_iff.1 held⟩⟩
  | some c =>
    obtain rfl := Word.ofInt?_eq_some_iff.1 held
    refine .inl ⟨c, rfl, result, ?_⟩
    rintro (⟨k, other, out⟩ | special)
    · rw [result, Option.some.injEq] at other
      exact out (other ▸ Word.inRange_toInt c)
    · exact plain special

/-- **`faithful_of_isIntegral`**: arithmetic on two words is that on the integers, as far as words go. -/
theorem faithful_of_isIntegral {op : BinaryOperator} (integral : op.isIntegral = true)
    (a b : Int64) : op.Faithful a b := by
  cases op with
  | plus => exact faithful_of_computes rfl rfl (by simp)
  | minus => exact faithful_of_computes rfl rfl (by simp)
  | multiply => exact faithful_of_computes rfl rfl (by simp)
  | modulo =>
    have computes : modulo.apply (.integer a) (.integer b) =
        ((Word.mod? a b).map Value.integer).getD .null := rfl
    rw [Word.mod?_eq] at computes
    by_cases special : b.toInt = 0 ∨ a.toInt = -9223372036854775808 ∧ b.toInt = -1
    · rw [if_pos special] at computes
      exact .inr ⟨computes, .inr ⟨rfl, special⟩⟩
    · rw [if_neg special] at computes
      have nonzero : b.toInt ≠ 0 := fun zero => special (.inl zero)
      exact faithful_of_computes (if_neg nonzero) computes fun other => special other.2
  | _ => cases integral

theorem apply_null_left {op : BinaryOperator} (integral : op.isIntegral = true) (v : Value) :
    op.apply .null v = .null := by
  cases op with
  | plus | minus | multiply | modulo => rfl
  | _ => cases integral

theorem apply_null_right {op : BinaryOperator} (integral : op.isIntegral = true) (v : Value) :
    op.apply v .null = .null := by
  cases op with
  | plus | minus | multiply | modulo => simp [apply, Value.isNull]
  | _ => cases integral

end BinaryOperator

/-! ## Predicates -/

namespace Predicate

/-- A predicate of integer arithmetic: operators over integers and columns that hold integers. -/
inductive IsIntegral (header : List String) (row : List Value) : Predicate → Prop where
  | column {name : String} {i : Int64} (cell : cell? header row name = some (.integer i)) :
      IsIntegral header row (.column name)
  | literal (i : Int64) : IsIntegral header row (.literal (.integer i))
  | opposite {p : Predicate} (operand : IsIntegral header row p) :
      IsIntegral header row (.unary .opposite p)
  | binary {op : BinaryOperator} {l r : Predicate} (integral : op.isIntegral = true)
      (left : IsIntegral header row l) (right : IsIntegral header row r) :
      IsIntegral header row (.binary op l r)

/-- The value over the unbounded integers, if there is one. -/
def unbounded? (header : List String) (row : List Value) : Predicate → Option Int
  | column name => ((cell? header row name).bind Value.toInt64?).map Int64.toInt
  | literal v => v.toInt64?.map Int64.toInt
  | unary .opposite p => (p.unbounded? header row).map fun i => -i
  | unary _ _ => none
  | binary op l r =>
    (l.unbounded? header row).bind fun i => (r.unbounded? header row).bind (op.unbounded? i)

/-- The parts of a predicate, itself included. -/
def parts : Predicate → List Predicate
  | column name => [column name]
  | literal v => [literal v]
  | unary op p => unary op p :: p.parts
  | binary op l r => binary op l r :: (l.parts ++ r.parts)

/-- The exact value is out of range, or it is a remainder by zero or that of the least word by minus
one. -/
def Overflows (header : List String) (row : List Value) (p : Predicate) : Prop :=
  (∃ i, p.unbounded? header row = some i ∧ ¬ Word.InRange i) ∨
    ∃ l r, p = .binary .modulo l r ∧
      (r.unbounded? header row = some 0 ∨
        l.unbounded? header row = some (-9223372036854775808) ∧ r.unbounded? header row = some (-1))

variable {header : List String} {row : List Value} {p l r : Predicate} {z : Int64}

/-- A predicate with an exact value, which no part of it exceeds. -/
structure Exact (header : List String) (row : List Value) (p : Predicate) (z : Int64) : Prop where
  value : p.value header row = .ok (.integer z)
  result : p.unbounded? header row = some z.toInt
  fits : ∀ q ∈ p.parts, ¬ q.Overflows header row

/-- A predicate whose value is lost to a part that overflows. -/
structure Lost (header : List String) (row : List Value) (p : Predicate) : Prop where
  value : p.value header row = .ok .null
  overflows : ∃ q ∈ p.parts, q.Overflows header row

/-- A leaf holds a word, so it does not overflow. -/
theorem not_overflows_of_word (result : p.unbounded? header row = some z.toInt)
    (plain : ∀ l r, p ≠ .binary .modulo l r) : ¬ p.Overflows header row := by
  rintro (⟨i, other, out⟩ | ⟨l, r, rfl, -⟩)
  · rw [result, Option.some.injEq] at other
    exact out (other ▸ Word.inRange_toInt z)
  · exact plain l r rfl

theorem overflows_binary_iff {op : BinaryOperator} {i j : Int}
    (left : l.unbounded? header row = some i) (right : r.unbounded? header row = some j) :
    (binary op l r).Overflows header row ↔ op.Overflows i j := by
  have result : (binary op l r).unbounded? header row = op.unbounded? i j := by
    simp only [unbounded?, left, right, Option.bind_some]
  constructor
  · rintro (outside | ⟨l', r', same, special⟩)
    · exact .inl (result ▸ outside)
    · cases same
      simp only [left, right, Option.some.injEq] at special
      exact .inr ⟨rfl, special⟩
  · rintro (outside | ⟨rfl, special⟩)
    · exact .inl (result ▸ outside)
    · refine .inr ⟨l, r, rfl, ?_⟩
      simpa only [left, right, Option.some.injEq] using special

/-! ### What an operator does -/

theorem Lost.opposite (operand : Lost header row p) : Lost header row (.unary .opposite p) where
  value := value_unary .opposite operand.value
  overflows :=
    have ⟨q, part, exceeds⟩ := operand.overflows
    ⟨q, List.mem_cons_of_mem _ part, exceeds⟩

theorem Lost.binary_left {op : BinaryOperator} {v : Value} (integral : op.isIntegral = true)
    (left : Lost header row l) (right : r.value header row = .ok v) :
    Lost header row (.binary op l r) where
  value := by
    rw [value_binary op left.value right, op.apply_null_left integral]
  overflows :=
    have ⟨q, part, exceeds⟩ := left.overflows
    ⟨q, List.mem_cons_of_mem _ (List.mem_append_left _ part), exceeds⟩

theorem Lost.binary_right {op : BinaryOperator} {v : Value} (integral : op.isIntegral = true)
    (left : l.value header row = .ok v) (right : Lost header row r) :
    Lost header row (.binary op l r) where
  value := by
    rw [value_binary op left right.value, op.apply_null_right integral]
  overflows :=
    have ⟨q, part, exceeds⟩ := right.overflows
    ⟨q, List.mem_cons_of_mem _ (List.mem_append_right _ part), exceeds⟩

theorem Exact.opposite (operand : Exact header row p z) :
    (∃ c, Exact header row (.unary .opposite p) c) ∨ Lost header row (.unary .opposite p) := by
  have value := value_unary .opposite operand.value
  have result : (Predicate.unary .opposite p).unbounded? header row = some (-z.toInt) := by
    rw [unbounded?, operand.result, Option.map_some]
  rw [UnaryOperator.apply, Word.neg?] at value
  cases held : Word.ofInt? (-z.toInt) with
  | none =>
    rw [held] at value
    have outside := Word.ofInt?_eq_none_iff.1 held
    exact .inr ⟨value, _, List.mem_cons_self, .inl ⟨_, result, outside⟩⟩
  | some c =>
    rw [held] at value
    rw [← Word.ofInt?_eq_some_iff.1 held] at result
    refine .inl ⟨c, value, result, List.forall_mem_cons.2 ⟨?_, operand.fits⟩⟩
    exact not_overflows_of_word result (by simp)

theorem Exact.binary {op : BinaryOperator} {w : Int64} (integral : op.isIntegral = true)
    (left : Exact header row l z) (right : Exact header row r w) :
    (∃ c, Exact header row (.binary op l r) c) ∨ Lost header row (.binary op l r) := by
  have value := value_binary op left.value right.value
  have overflows : (Predicate.binary op l r).Overflows header row ↔ op.Overflows z.toInt w.toInt :=
    overflows_binary_iff left.result right.result
  obtain ⟨c, applied, result, fits⟩ | ⟨null, exceeds⟩ := op.faithful_of_isIntegral integral z w
  · have unbounded : (Predicate.binary op l r).unbounded? header row = some c.toInt := by
      rw [unbounded?, left.result, right.result, ← result, Option.bind_some, Option.bind_some]
    refine .inl ⟨c, applied ▸ value, unbounded, List.forall_mem_cons.2 ⟨mt overflows.1 fits, ?_⟩⟩
    exact List.forall_mem_append.2 ⟨left.fits, right.fits⟩
  · exact .inr ⟨null ▸ value, _, List.mem_cons_self, overflows.2 exceeds⟩

/-! ### What a whole predicate does -/

theorem IsIntegral.exact_or_lost (integral : p.IsIntegral header row) :
    (∃ z, Exact header row p z) ∨ Lost header row p := by
  induction integral with
  | @column name i cell =>
    have result : (Predicate.column name).unbounded? header row = some i.toInt := by
      simp [unbounded?, cell, Value.toInt64?]
    refine .inl ⟨i, by rw [Predicate.value, cell], result, ?_⟩
    exact List.forall_mem_singleton.2 (not_overflows_of_word result (by simp))
  | literal i =>
    refine .inl ⟨i, rfl, rfl, List.forall_mem_singleton.2 ?_⟩
    exact not_overflows_of_word rfl (by simp)
  | opposite operand ih =>
    obtain ⟨z, exact⟩ | lost := ih
    · exact exact.opposite
    · exact .inr lost.opposite
  | binary integral left right ihLeft ihRight =>
    obtain ⟨z, exactLeft⟩ | lostLeft := ihLeft
    · obtain ⟨w, exactRight⟩ | lostRight := ihRight
      · exact exactLeft.binary integral exactRight
      · exact .inr (.binary_right integral exactLeft.value lostRight)
    · obtain ⟨w, exactRight⟩ | lostRight := ihRight
      · exact .inr (lostLeft.binary_left integral exactRight.value)
      · exact .inr (lostLeft.binary_left integral lostRight.value)

/-- **`integer_value_exact`**: a predicate of integer arithmetic always has a value, which is an integer
or null. An integer is the value over the unbounded integers, and null comes up just where a part
overflows. -/
theorem integer_value_exact (integral : p.IsIntegral header row) :
    ∃ v, p.value header row = .ok v ∧
      ((∃ z : Int64, v = .integer z ∧ p.unbounded? header row = some z.toInt) ∨ v = .null) ∧
      (v = .null ↔ ∃ q ∈ p.parts, q.Overflows header row) := by
  obtain ⟨z, value, result, fits⟩ | ⟨value, overflows⟩ := integral.exact_or_lost
  · refine ⟨.integer z, value, .inl ⟨z, rfl, result⟩, ?_⟩
    simpa using fits
  · exact ⟨.null, value, .inr rfl, iff_of_true rfl overflows⟩

/-- One less the remainder of a column. -/
def lessRemainder (divisor : Int64) : Predicate :=
  binary .plus (literal (.integer 1))
    (unary .opposite (binary .modulo (column "low") (literal (.integer divisor))))

/-- A row that holds the least word. -/
def lowRow : List Value := [.integer (-9223372036854775808)]

/-- By seven the value is exact; by minus one the remainder is lost, two levels below the root. -/
theorem integer_value_exact_lowRow :
    ((lessRemainder 7).value ["low"] lowRow = .ok (.integer (-5)) ∧
      (lessRemainder 7).unbounded? ["low"] lowRow = some (-5)) ∧
    (lessRemainder (-1)).value ["low"] lowRow = .ok .null := by
  have integral (divisor : Int64) : IsIntegral ["low"] lowRow (lessRemainder divisor) :=
    .binary rfl (.literal 1) (.opposite (.binary rfl (.column rfl) (.literal divisor)))
  constructor
  · obtain ⟨v, value, kinds, -⟩ := integer_value_exact (integral 7)
    obtain rfl : v = .integer (-5) := Except.ok.inj (value.symm.trans rfl)
    obtain ⟨z, same, result⟩ | null := kinds
    · cases same
      exact ⟨value, result⟩
    · cases null
  · obtain ⟨v, value, -, null⟩ := integer_value_exact (integral (-1))
    have lost : v = .null := by
      refine null.2 ⟨binary .modulo (column "low") (literal (.integer (-1))), ?_, .inr ?_⟩
      · simp [lessRemainder, parts]
      · exact ⟨_, _, rfl, .inr (by decide)⟩
    rw [value, lost]

end Predicate

end PrivateQuery
