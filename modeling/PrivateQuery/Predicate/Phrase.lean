import PrivateQuery.Decimal.Reading
import PrivateQuery.Predicate.Basic

/-!
# Phrases

A phrase is predicate text as it is written: with its parentheses, ranges and lists, and with the
constructs that predicates do without. `Phrase.toPredicate` says what a phrase means, or which of
its parts means nothing; of several such parts the first in reading order counts, and an operator
comes after its operands.
-/
namespace PrivateQuery

/-- An operator of one operand as it is written. -/
inductive UnaryMark where
  | not
  | minus
  | plus
  /-- One that predicates do without. -/
  | other (spelling : String)
deriving DecidableEq, Repr

/-- An operator of two operands as it is written. -/
inductive BinaryMark where
  | known (op : BinaryOperator)
  /-- One that predicates do without. -/
  | other (spelling : String)
deriving DecidableEq, Repr

inductive Phrase where
  | name (text : String)
  | literal (value : Value)
  | number (text : String)
  | nested (inner : Phrase)
  | unary (mark : UnaryMark) (operand : Phrase)
  | binary (mark : BinaryMark) (left right : Phrase)
  /-- `x is null`, or `x is not null` when negated. -/
  | isNull (negated : Bool) (operand : Phrase)
  /-- `x is true` or `x is false`. -/
  | isTruth (truth : Bool) (operand : Phrase)
  /-- `x in (…)`, or `x not in (…)` when negated. -/
  | among (negated : Bool) (operand : Phrase) (items : List Phrase)
  /-- `x between … and …`, or `x not between … and …` when negated. -/
  | between (negated : Bool) (operand low high : Phrase)
  /-- A word that predicates do without. -/
  | unsupported (spelling : String)
  /-- A construct that predicates do without. -/
  | foreign

namespace Phrase

/-- A number: an integer if a signed word holds it, a double otherwise. -/
def ofNumber (text : String) : Except PredicateError Predicate :=
  match Decimal.readInt? text with
  | some i => .ok (.literal (.integer i))
  | none =>
    match Decimal.readFloat? text with
    | some x => .ok (.literal (.real x))
    | none => .error (.unsupported text)

def negateIf (negated : Bool) (p : Predicate) : Predicate := if negated then .unary .not p else p

mutual

/-- The predicate that a phrase means (`Expr.try_from`). -/
def toPredicate : Phrase → Except PredicateError Predicate
  | name text => .ok (.column text)
  | literal v => .ok (.literal v)
  | number text => ofNumber text
  | nested inner => inner.toPredicate
  | unary mark operand => do
    let x ← operand.toPredicate
    match mark with
    | .not => return .unary .not x
    | .minus => return .unary .opposite x
    | .plus => return x
    | .other spelling => .error (.unsupported spelling)
  | binary mark left right => do
    let l ← left.toPredicate
    let r ← right.toPredicate
    match mark with
    | .known op => return .binary op l r
    | .other spelling => .error (.unsupported spelling)
  | isNull negated operand => do
    let x ← operand.toPredicate
    return .unary (if negated then .isNotNull else .isNull) x
  | isTruth truth operand => do
    let x ← operand.toPredicate
    return .binary .eq x (.literal (.boolean truth))
  | among negated operand items => do
    let x ← operand.toPredicate
    let p ← amongAny x items
    return negateIf negated p
  | between negated operand low high => do
    let x ← operand.toPredicate
    let l ← low.toPredicate
    let h ← high.toPredicate
    return negateIf negated (.binary .and (.binary .gtEq x l) (.binary .ltEq x h))
  | unsupported spelling => .error (.unsupported spelling)
  | foreign => .error .unsupportedForm

/-- Equality with one of the items, false if there are none. -/
def amongAny (x : Predicate) : List Phrase → Except PredicateError Predicate
  | [] => .ok (.literal (.boolean false))
  | item :: items => do
    let y ← item.toPredicate
    orAmong x (.binary .eq x y) items

/-- A predicate, or equality with one of the items. -/
def orAmong (x p : Predicate) : List Phrase → Except PredicateError Predicate
  | [] => .ok p
  | item :: items => do
    let y ← item.toPredicate
    orAmong x (.binary .or p (.binary .eq x y)) items

end

end Phrase

end PrivateQuery
