import PrivateQuery.Predicate.Operator

/-!
# Predicates: `Expr`

A predicate is a tree of operators over columns and literals. `Predicate.value` evaluates it on a
row whose cells go by a header; the only way it can fail is a column that the header lacks or that
lies beyond the end of the row.
-/
namespace PrivateQuery

inductive Predicate where
  | column (name : String)
  | literal (value : Value)
  | unary (op : UnaryOperator) (operand : Predicate)
  | binary (op : BinaryOperator) (left right : Predicate)
deriving DecidableEq

/-- Why there is no predicate, or no value of one. -/
inductive PredicateError where
  /-- The text does not follow the grammar. -/
  | malformed
  /-- Text goes on after the predicate, with a token that cannot follow. -/
  | leftover (text token : String)
  /-- A word or an operator that the grammar knows and predicates do without. -/
  | unsupported (spelling : String)
  /-- A construct that the grammar knows and predicates do without. -/
  | unsupportedForm
  | wrongCount (symbol : String) (count : Nat)
  | unknownColumn (name : String)
deriving DecidableEq, Repr

namespace PredicateError

def kind : PredicateError → String
  | malformed | leftover .. | unsupported _ | unsupportedForm => "InvalidExpression"
  | wrongCount .. => "InvalidArguments"
  | unknownColumn _ => "UnknownColumn"

def description : PredicateError → String
  | malformed => "the text is no predicate"
  | leftover text token => s!"{text} (unexpected {token}) is invalid"
  | unsupported spelling => s!"{spelling} is invalid"
  | unsupportedForm => "the text has a form that predicates lack"
  | wrongCount symbol count => s!"{symbol} cannot take {count} arguments"
  | unknownColumn name => s!"{name} is unknown"

def message (e : PredicateError) : String := e.kind ++ ": " ++ e.description

end PredicateError

/-- An operator of either number of operands. -/
inductive Operator where
  | unary (op : UnaryOperator)
  | binary (op : BinaryOperator)
deriving DecidableEq, Repr

namespace Operator

def symbol : Operator → String
  | unary op => op.symbol
  | binary op => op.symbol

def arity : Operator → Nat
  | unary _ => 1
  | binary _ => 2

/-- Apply to a list of operands, which must have the right length. -/
def apply : Operator → List Value → Except PredicateError Value
  | unary op, [x] => .ok (op.apply x)
  | binary op, [l, r] => .ok (op.apply l r)
  | op, operands => .error (.wrongCount op.symbol operands.length)

/-- The predicate that applies to a list of operands, if it has the right length. -/
def toPredicate? : Operator → List Predicate → Option Predicate
  | unary op, [x] => some (.unary op x)
  | binary op, [l, r] => some (.binary op l r)
  | _, _ => none

end Operator

namespace Predicate

/-- The columns in order of appearance, repeated ones included (`collect_columns`). -/
def mentions : Predicate → List String
  | column name => [name]
  | literal _ => []
  | unary _ operand => operand.mentions
  | binary _ left right => left.mentions ++ right.mentions

/-- The columns in order of first appearance. -/
def columns (p : Predicate) : List String := p.mentions.eraseDups

/-- A literal inside a predicate. -/
def literalText : Value → String
  | .text s => "\x27" ++ s ++ "\x27"
  | v => v.toString

def toString : Predicate → String
  | column name => "\x60" ++ name ++ "\x60"
  | literal v => literalText v
  | unary op operand =>
    if op.follows then s!"({operand.toString}) {op.symbol}"
    else s!"{op.symbol} ({operand.toString})"
  | binary op left right => s!"({left.toString} {op.symbol} {right.toString})"

instance : ToString Predicate := ⟨Predicate.toString⟩

/-! ## Evaluation -/

/-- The cell of a row under the first header of a name. -/
def cell? (header : List String) (row : List Value) (name : String) : Option Value :=
  (header.findIdx? (· == name)).bind fun i => row[i]?

/-- The value on a row. -/
def value (header : List String) (row : List Value) : Predicate → Except PredicateError Value
  | column name =>
    match cell? header row name with
    | some v => .ok v
    | none => .error (.unknownColumn name)
  | literal v => .ok v
  | unary op operand => do
    let x ← operand.value header row
    return op.apply x
  | binary op left right => do
    let l ← left.value header row
    let r ← right.value header row
    return op.apply l r

/-- Whether a row satisfies the predicate; null does not. -/
def holds (header : List String) (row : List Value) (p : Predicate) :
    Except PredicateError Bool := do
  let v ← p.value header row
  return v == .boolean true

end Predicate

end PrivateQuery
