import PrivateQuery.Binary64.Exact
import PrivateQuery.Decimal.Layout
import Std.Data.HashSet

/-!
# Values

What cells, bins and literals hold. Identity of values (`Value.same`) decides bins and categories;
it does not tell the two zeros apart, there is a single NaN, and it agrees with the fingerprint of
a value. Comparison of values is in `PrivateQuery.Value.Order`.

A double is held as a `Float`, which has a single NaN: `Float.ofBits` brings every pattern of bits that
is no number to that one, so `canonicalBits` never meets another and has nothing left to bring together.
What it makes of the bits that a cell comes with is `canonicalBits_ofBits`.
-/
namespace PrivateQuery

inductive Value where
  /-- A missing value. -/
  | null
  | boolean (b : Bool)
  | integer (i : Int64)
  /-- A double. All patterns of NaN are one value here. -/
  | real (x : Float)
  | text (s : String)
deriving DecidableEq

namespace Value

/-- The kind of a value in messages. -/
def kind : Value → String
  | null => "null"
  | boolean _ => "bool"
  | integer _ => "int"
  | real _ => "double"
  | text _ => "text"

def isNull : Value → Bool
  | null => true
  | _ => false

def isBoolean : Value → Bool
  | boolean _ => true
  | _ => false

def isInteger : Value → Bool
  | integer _ => true
  | _ => false

def isText : Value → Bool
  | text _ => true
  | _ => false

def toBool? : Value → Option Bool
  | boolean b => some b
  | _ => none

def toInt64? : Value → Option Int64
  | integer i => some i
  | _ => none

/-- The number a value holds, an integer rounded to the nearest double. -/
def toFloat? : Value → Option Float
  | integer i => some (Binary64.ofInt i.toInt)
  | real x => some x
  | _ => none

def toString : Value → String
  | null => "null"
  | boolean b => if b then "true" else "false"
  | integer i => ToString.toString i.toInt
  | real x => Decimal.plain x
  | text s => s

instance : ToString Value := ⟨Value.toString⟩

/-! ## Identity -/

/-- The bits that stand for a double: those of zero for either zero, and one pattern for NaN
(`canonical_bits`). -/
def canonicalBits (x : Float) : UInt64 :=
  if x == 0 then 0 else if x.isNaN then Binary64.nan.toBits else x.toBits

/-- Whether two values are the same. An integer is never the same as a double. -/
def same : Value → Value → Bool
  | null, null => true
  | boolean a, boolean b => a == b
  | integer a, integer b => a == b
  | real x, real y => canonicalBits x == canonicalBits y
  | text s, text t => s == t
  | _, _ => false

instance : BEq Value := ⟨same⟩

theorem same_refl (a : Value) : a.same a = true := by
  cases a <;> simp [same]

theorem same_symm {a b : Value} (h : a.same b = true) : b.same a = true := by
  cases a <;> cases b <;> simp_all [same]

theorem same_trans {a b c : Value} (h : a.same b = true) (h' : b.same c = true) :
    a.same c = true := by
  cases a <;> cases b <;> cases c <;> simp_all [same]

instance : EquivBEq Value where
  rfl := same_refl _
  symm := same_symm
  trans := same_trans

/-- The bytes of a word, the lowest first. -/
def bytesOf (word : UInt64) : List UInt8 :=
  (List.range 8).map fun i => (word >>> (8 * i).toUInt64).toUInt8

/-- What a value feeds to a hash: its kind, then its content. -/
def fingerprint : Value → List UInt8
  | null => [0]
  | boolean b => [1, if b then 1 else 0]
  | integer i => 2 :: bytesOf i.toUInt64
  | real x => 3 :: bytesOf (canonicalBits x)
  | text s => 4 :: s.toUTF8.toList ++ [0xFF]

theorem fingerprint_eq_of_same {a b : Value} (h : a.same b = true) :
    a.fingerprint = b.fingerprint := by
  cases a <;> cases b <;> simp_all [same, fingerprint]

instance : Hashable Value := ⟨fun v => hash v.fingerprint⟩

instance : LawfulHashable Value where
  hash_eq _ _ h := congrArg (fun bytes : List UInt8 => hash bytes) (fingerprint_eq_of_same h)

/-- Whether no value of a list is among those seen or occurs twice. -/
def allNew : List Value → (seen : Std.HashSet Value) → Bool
  | [], _ => true
  | v :: rest, seen => !seen.contains v && allNew rest (seen.insert v)

/-- Whether no two values of a list are the same. -/
def allDistinct (values : List Value) : Bool := allNew values ∅

/-! ## Closed checks -/

example : same (real 0.0) (real (-0.0)) = true ∧ same (integer 1) (real 1.0) = false := by decide
example : same (real Binary64.nan) (real (0.0 / 0.0)) = true := by decide

end Value

end PrivateQuery
