import PrivateQuery.Predicate.Phrase
import PrivateQuery.Predicate.Reader

/-!
# How operators bind

An operator is taken while its power is above that of the operator whose operand is being read, so
all of them associate to the left. `power` is the power of the operator that a list of tokens starts
with, and `readMark?` reads the operators that stand between two phrases.
-/
namespace PrivateQuery.Phrase

open Reader

/-! ## Powers -/

/-- How strongly the operators bind that are symbols. -/
def symbolPowers : List (String × Nat) :=
  [("->", 16), ("->>", 16), ("#>", 16), ("#>>", 16), ("@>", 16), ("<@", 16), ("#-", 16), ("@?", 16),
    ("@@", 16), ("=", 20), ("==", 20), ("<>", 20), ("<", 20), ("<=", 20), (">", 20), (">=", 20),
    ("<=>", 20), ("~", 20), ("~*", 20), ("!~", 20), ("!~*", 20), ("~~", 20), ("~~*", 20),
    ("!~~", 20), ("!~~*", 20), ("|", 21), ("^", 22), ("#", 22), ("<<", 22), (">>", 22), ("&", 23),
    ("+", 30), ("-", 30), ("*", 40), ("/", 40), ("//", 40), ("%", 40), ("||", 40), ("::", 50),
    ("!", 50), ("[", 50), (":", 50), ("&&", 50), ("^@", 50)]

/-- How strongly the operators bind that are words. -/
def wordPowers : List (String × Nat) :=
  [("OR", 5), ("AND", 10), ("XOR", 24), ("IS", 17), ("IN", 20), ("BETWEEN", 20), ("LIKE", 19),
    ("ILIKE", 19), ("RLIKE", 19), ("REGEXP", 19), ("SIMILAR", 19), ("OPERATOR", 20), ("DIV", 40)]

/-- The words that `not` may precede as an operator. -/
def negatable : List String := ["IN", "BETWEEN", "LIKE", "ILIKE", "RLIKE", "REGEXP", "SIMILAR"]

def notPower : Nat := 15

def likePower : Nat := 19

def rangePower : Nat := 20

def signPower : Nat := 40

/-- How strongly the operator binds that the tokens start with, zero if they start with none. -/
def power : List Token → Nat
  | [] => 0
  | .symbol s :: _ => (symbolPowers.lookup s).getD 0
  | t :: rest =>
    match t.capitalized? with
    | none => 0
    | some "AT" => if (keywords ["TIME", "ZONE"] rest).isSome then 20 else 0
    | some "NOT" =>
      match rest with
      | next :: _ =>
        match next.capitalized? with
        | some text => if negatable.contains text then (wordPowers.lookup text).getD 0 else 0
        | none => 0
      | [] => 0
    | some text => (wordPowers.lookup text).getD 0

/-- The power where the words that join predicates are no operators. -/
def amountPower (ts : List Token) : Nat :=
  if startsWith ["AND", "OR", "XOR"] ts then 0 else power ts

/-! ## Operators between two phrases -/

/-- The comparison operators, with two spellings of two of them. -/
def comparisons : List (String × BinaryOperator) :=
  [("=", .eq), ("==", .eq), ("<>", .notEq), ("<", .lt), ("<=", .ltEq), (">", .gt), (">=", .gtEq)]

/-- Whether an operator compares. -/
def BinaryMark.compares : BinaryMark → Bool
  | .known op => (comparisons.map Prod.snd).contains op
  | .other _ => false

/-- The operators of two operands that are symbols. -/
def symbolMark? (spelling : String) : Option BinaryMark :=
  let known : List (String × BinaryOperator) := comparisons ++
    [("+", .plus), ("-", .minus), ("*", .multiply), ("/", .divide), ("%", .modulo), ("&", .and),
      ("|", .or)]
  match known.lookup spelling with
  | some op => some (.known op)
  | none =>
    if ["#", "::", "!", "[", ":"].contains spelling then none
    else if (symbolPowers.lookup spelling).isSome then some (.other spelling)
    else none

/-- An operator spelled out in parentheses: names joined by points. -/
def readSpelledOut? : List Token → (gathered : String) → Option (BinaryMark × List Token)
  | t :: .symbol "." :: rest, gathered => readSpelledOut? rest (gathered ++ t.spelling ++ ".")
  | t :: .symbol ")" :: rest, gathered => some (.other (gathered ++ t.spelling ++ ")"), rest)
  | _, _ => none

/-- An operator of two operands. -/
def readMark? : List Token → Option (BinaryMark × List Token)
  | .symbol s :: rest => (symbolMark? s).map fun mark => (mark, rest)
  | t :: rest =>
    match t.capitalized? with
    | some "AND" => some (.known .and, rest)
    | some "OR" => some (.known .or, rest)
    | some "XOR" => some (.other "XOR", rest)
    | some "OPERATOR" => (symbol "(" rest).bind fun rest => readSpelledOut? rest "OPERATOR("
    | _ => none
  | [] => none

end PrivateQuery.Phrase
