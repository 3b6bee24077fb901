import PrivateQuery.Binary64.Integral
import PrivateQuery.Value.Order
import PrivateQuery.Word.Signed

/-!
# Operators of predicates: `Function`

Operators act on values of any kind. An operand that is missing or of the wrong kind gives null, and
so does arithmetic whose result does not fit; conjunction and disjunction follow three-valued logic.
-/
namespace PrivateQuery

/-- Operators with one operand. -/
inductive UnaryOperator where
  | opposite
  | not
  | isNull
  | isNotNull
deriving DecidableEq, Repr

/-- Operators with two operands. -/
inductive BinaryOperator where
  | plus
  | minus
  | multiply
  | divide
  | modulo
  | gt
  | lt
  | gtEq
  | ltEq
  | eq
  | notEq
  | and
  | or
deriving DecidableEq, Repr

namespace UnaryOperator

def symbol : UnaryOperator → String
  | opposite => "-"
  | not => "not"
  | isNull => "is null"
  | isNotNull => "is not null"

/-- Whether the symbol stands after the operand. -/
def follows : UnaryOperator → Bool
  | isNull | isNotNull => true
  | opposite | not => false

def apply : UnaryOperator → Value → Value
  | isNull, x => .boolean x.isNull
  | isNotNull, x => .boolean !x.isNull
  | opposite, .integer i => ((Word.neg? i).map Value.integer).getD .null
  | opposite, .real x => .real (-x)
  | not, .boolean b => .boolean !b
  | _, _ => .null

end UnaryOperator

namespace BinaryOperator

def symbol : BinaryOperator → String
  | plus => "+"
  | minus => "-"
  | multiply => "*"
  | divide => "/"
  | modulo => "%"
  | gt => ">"
  | lt => "<"
  | gtEq => ">="
  | ltEq => "<="
  | eq => "=="
  | notEq => "!="
  | and => "and"
  | or => "or"

/-- False as soon as one operand is false, true if both are true. -/
def conjunction (l r : Option Bool) : Value :=
  match l, r with
  | some false, _ | _, some false => .boolean false
  | some true, some true => .boolean true
  | _, _ => .null

/-- True as soon as one operand is true, false if both are false. -/
def disjunction (l r : Option Bool) : Value :=
  match l, r with
  | some true, _ | _, some true => .boolean true
  | some false, some false => .boolean false
  | _, _ => .null

/-- A comparison of values that have one, null otherwise. -/
def ordered (l r : Value) (holds : Ordering → Bool) : Value :=
  match l.compare? r with
  | some o => .boolean (holds o)
  | none => .null

/-- Arithmetic on doubles; only a finite result counts (`float_arithmetic`). -/
def onFloats (f : Float → Float → Float) (l r : Value) : Value :=
  match l.toFloat?, r.toFloat? with
  | some x, some y =>
    let z := f x y
    if z.isFinite then .real z else .null
  | _, _ => .null

/-- Arithmetic on two integers if both operands are, on doubles otherwise. -/
def arithmetic (onWords : Int64 → Int64 → Option Int64) (f : Float → Float → Float) (l r : Value) :
    Value :=
  match l, r with
  | .integer i, .integer j => ((onWords i j).map Value.integer).getD .null
  | _, _ => onFloats f l r

/-- Operators other than the connectives, on operands that are there. -/
def onPresent : BinaryOperator → Value → Value → Value
  | eq, l, r => .boolean (l.compare? r == some .eq)
  | notEq, l, r => .boolean (l.compare? r != some .eq)
  | gt, l, r => ordered l r Ordering.isGT
  | lt, l, r => ordered l r Ordering.isLT
  | gtEq, l, r => ordered l r Ordering.isGE
  | ltEq, l, r => ordered l r Ordering.isLE
  | plus, .text s, .text t => .text (s ++ t)
  | plus, l, r => arithmetic Word.add? (· + ·) l r
  | minus, l, r => arithmetic Word.sub? (· - ·) l r
  | multiply, l, r => arithmetic Word.mul? (· * ·) l r
  | modulo, l, r => arithmetic Word.mod? Binary64.euclideanRemainder l r
  | divide, l, r => onFloats (· / ·) l r
  | and, l, r => conjunction l.toBool? r.toBool?
  | or, l, r => disjunction l.toBool? r.toBool?

def apply (op : BinaryOperator) (l r : Value) : Value :=
  match op with
  | and => conjunction l.toBool? r.toBool?
  | or => disjunction l.toBool? r.toBool?
  | _ => if l.isNull || r.isNull then .null else op.onPresent l r

end BinaryOperator

/-! ## Closed checks -/

section Checks

open BinaryOperator

example : apply and .null (.boolean false) = .boolean false := by decide
example : apply or .null (.boolean false) = .null := by decide
example : apply notEq (.integer 1) (.text "1") = .boolean true := by decide
example : apply lt (.integer 1) (.text "1") = .null := by decide
example : apply plus (.integer 9223372036854775807) (.integer 1) = .null := by decide
example : apply divide (.integer 1) (.integer 0) = .null := by decide +kernel

end Checks

end PrivateQuery
