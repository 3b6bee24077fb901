import PrivateQuery.Json.Tree
import PrivateQuery.Decimal.Reading

/-!
# Reading JSON

`Json.read?` takes a whole text, white space around the document included, and has no answer where
the text is not JSON. The grammar is strict: no control characters in strings, no leading zeros, no
text after the document.
-/
namespace PrivateQuery.Json

def skipBlanks (cs : List Char) : List Char :=
  cs.dropWhile fun c => c == ' ' || c == '\n' || c == '\r' || c == '\t'

/-! ## Numbers -/

/-- The digits of a number as they are gathered: leading digits as long as they fit 64 bits, and the
power of ten they are to be scaled by. -/
structure Scaled where
  significand : Nat
  exponent : Int

/-- Append a digit, unless the significand would no longer fit. Irreducible, for the elaborator would
count up to the size of a word. -/
@[irreducible] def Scaled.push? (n : Scaled) (digit : Char) : Option Scaled :=
  let significand := 10 * n.significand + (digit.toNat - 48)
  if significand < UInt64.size then some { n with significand } else none

/-- Digits before the point: from the first that does not fit on, each only scales the number. -/
def Scaled.pushWhole : Scaled → List Char → Scaled
  | n, [] => n
  | n, digit :: digits =>
    match n.push? digit with
    | some n => n.pushWhole digits
    | none => { n with exponent := n.exponent + (digit :: digits).length }

/-- Digits after the point: from the first that does not fit on they are dropped. -/
def Scaled.pushFraction : Scaled → List Char → Scaled
  | n, [] => n
  | n, digit :: digits =>
    match n.push? digit with
    | some n => { n with exponent := n.exponent - 1 }.pushFraction digits
    | none => n

/-- Divide by a power of ten in steps that doubles can hold; after three steps only zero is left. -/
def divideByPower (x : Float) : (steps : Nat) → (power : Nat) → Float
  | 0, _ => 0
  | steps + 1, power =>
    if power ≤ 308 then x / Decimal.toFloat false 1 power
    else divideByPower (x / Decimal.toFloat false 1 308) steps (power - 308)

/-- The double for gathered digits, by one multiplication or division; absent beyond the doubles. -/
def Scaled.toFloat? (n : Scaled) : Option Float :=
  let x := Binary64.ofNat n.significand
  if n.exponent < 0 then some (divideByPower x 3 n.exponent.natAbs)
  else if n.exponent ≤ 308 then
    let y := x * Decimal.toFloat false 1 n.exponent
    if y.isInf then none else some y
  else if n.significand = 0 then some 0 else none

/-- A number from its parts. Without point and exponent it is an integer if a 64-bit word can hold
it, except for a negative zero. -/
def ofParts (negative : Bool) (whole : List Char) (fraction : Option (List Char))
    (exponent : Option Int) : Json :=
  let real (n : Scaled) : Json :=
    match n.toFloat? with
    | some x => .real (Binary64.signed negative x)
    | none => .broken
  let n := Scaled.pushWhole ⟨0, 0⟩ whole
  match fraction, exponent with
  | none, none =>
    if n.exponent ≠ 0 then real n
    else if !negative then .integer n.significand
    else if n.significand = 0 ∨ 9223372036854775808 < n.significand then
      .real (-Binary64.ofNat n.significand)
    else .integer (-n.significand)
  | _, _ =>
    let n := n.pushFraction (fraction.getD [])
    real { n with exponent := n.exponent + exponent.getD 0 }

def readExponent? (cs : List Char) : Option (Int × List Char) :=
  let (negative, rest) := Decimal.readSign cs
  let digits := rest.takeWhile Char.isDigit
  if digits.isEmpty then none
  else
    let size := Decimal.ofDigits digits
    some (if negative then -(size : Int) else size, rest.dropWhile Char.isDigit)

def readMinus : List Char → Bool × List Char
  | '-' :: rest => (true, rest)
  | rest => (false, rest)

/-- The digits before the point, without leading zeros. -/
def readWhole? (cs : List Char) : Option (List Char × List Char) :=
  let whole := cs.takeWhile Char.isDigit
  if whole.isEmpty || (whole.head? == some '0' && 1 < whole.length) then none
  else some (whole, cs.dropWhile Char.isDigit)

def readFraction? : List Char → Option (Option (List Char) × List Char)
  | '.' :: rest =>
    let digits := rest.takeWhile Char.isDigit
    if digits.isEmpty then none else some (some digits, rest.dropWhile Char.isDigit)
  | rest => some (none, rest)

def readPower? : List Char → Option (Option Int × List Char)
  | 'e' :: rest => (readExponent? rest).map fun (e, rest) => (some e, rest)
  | 'E' :: rest => (readExponent? rest).map fun (e, rest) => (some e, rest)
  | rest => some (none, rest)

def readNumber? (cs : List Char) : Option (Json × List Char) := do
  let (negative, cs) := readMinus cs
  let (whole, rest) ← readWhole? cs
  let (fraction, rest) ← readFraction? rest
  let (exponent, rest) ← readPower? rest
  some (ofParts negative whole fraction exponent, rest)

/-! ## Strings -/

def hexDigit? (c : Char) : Option Nat :=
  if '0' ≤ c ∧ c ≤ '9' then some (c.toNat - 48)
  else if 'a' ≤ c ∧ c ≤ 'f' then some (c.toNat - 87)
  else if 'A' ≤ c ∧ c ≤ 'F' then some (c.toNat - 55)
  else none

/-- The number that four hexadecimal digits denote. -/
def ofHex? (a b c d : Char) : Option Nat := do
  let a ← hexDigit? a
  let b ← hexDigit? b
  let c ← hexDigit? c
  let d ← hexDigit? d
  some (4096 * a + 256 * b + 16 * c + d)

/-- One element of a string: a character, or half of a surrogate pair. -/
inductive Unit16 where
  | char (c : Char)
  | half (unit : Nat)

def Unit16.ofNat (n : Nat) : Unit16 :=
  if 0xD800 ≤ n ∧ n ≤ 0xDFFF then .half n else .char (Char.ofNat n)

/-- What a backslash and one letter stand for. -/
def escaped? (c : Char) : Option Char :=
  if c == '"' || c == '\\' || c == '/' then some c
  else if c == 'b' then some '\x08'
  else if c == 'f' then some '\x0c'
  else if c == 'n' then some '\n'
  else if c == 'r' then some '\r'
  else if c == 't' then some '\t'
  else none

/-- The elements of a string up to its closing quote. -/
def readUnits? : List Char → (gathered : List Unit16) → Option (List Unit16 × List Char)
  | '"' :: rest, gathered => some (gathered.reverse, rest)
  | '\\' :: 'u' :: a :: b :: c :: d :: rest, gathered =>
    match ofHex? a b c d with
    | some n => readUnits? rest (.ofNat n :: gathered)
    | none => none
  | '\\' :: c :: rest, gathered =>
    match escaped? c with
    | some c => readUnits? rest (.char c :: gathered)
    | none => none
  | c :: rest, gathered =>
    if c < ' ' || c == '\\' then none else readUnits? rest (.char c :: gathered)
  | [], _ => none

/-- Join the halves of surrogate pairs; absent when one is alone. -/
def joinHalves? : List Unit16 → Option (List Char)
  | [] => some []
  | .char c :: rest => (joinHalves? rest).map (c :: ·)
  | .half high :: .half low :: rest =>
    if high < 0xDC00 ∧ 0xDC00 ≤ low then
      (joinHalves? rest).map (Char.ofNat (0x10000 + (high - 0xD800) * 1024 + (low - 0xDC00)) :: ·)
    else none
  | .half _ :: _ => none

/-- A string after its opening quote: its text, absent when it denotes none. -/
def readString? (cs : List Char) : Option (Option String × List Char) :=
  (readUnits? cs []).map fun (units, rest) =>
    ((joinHalves? units).map String.ofList, rest)

/-! ## Documents -/

/-- An object, unless one of its keys denotes nothing. -/
def ofMembers (members : List (Option String × Json)) : Json :=
  match members.mapM fun (key, value) => key.map fun key => (key, value) with
  | some members => .object members
  | none => .broken

/-- A string, unless it denotes nothing. -/
def ofText (s : Option String) : Json :=
  match s with
  | some s => .text s
  | none => .broken

/-- The rest of the text after a word. -/
def afterWord? (word : String) (cs : List Char) : Option (List Char) :=
  if word.toList.isPrefixOf cs then some (cs.drop word.length) else none

mutual

/-- A document at the start of a text. Each call reads at least one character, so a text is read
within as many calls as it has characters. -/
def readDocument? : (fuel : Nat) → List Char → Option (Json × List Char)
  | 0, _ => none
  | fuel + 1, cs =>
    match skipBlanks cs with
    | '[' :: rest =>
      match skipBlanks rest with
      | ']' :: rest => some (.array [], rest)
      | rest => readItems? fuel rest []
    | '\x7b' :: rest =>
      match skipBlanks rest with
      | '\x7d' :: rest => some (.object [], rest)
      | rest => readMembers? fuel rest []
    | '"' :: rest => (readString? rest).map fun (s, rest) => (ofText s, rest)
    | 'n' :: rest => (afterWord? "ull" rest).map fun rest => (.null, rest)
    | 't' :: rest => (afterWord? "rue" rest).map fun rest => (.boolean true, rest)
    | 'f' :: rest => (afterWord? "alse" rest).map fun rest => (.boolean false, rest)
    | rest => readNumber? rest

/-- The items of an array, after its bracket or a comma. -/
def readItems? : (fuel : Nat) → List Char → (gathered : List Json) → Option (Json × List Char)
  | 0, _, _ => none
  | fuel + 1, cs, gathered =>
    match readDocument? fuel cs with
    | none => none
    | some (item, rest) =>
      match skipBlanks rest with
      | ',' :: rest => readItems? fuel rest (item :: gathered)
      | ']' :: rest => some (.array (item :: gathered).reverse, rest)
      | _ => none

/-- The members of an object, after its bracket or a comma. -/
def readMembers? : (fuel : Nat) → List Char → (gathered : List (Option String × Json)) →
    Option (Json × List Char)
  | 0, _, _ => none
  | fuel + 1, cs, gathered =>
    match skipBlanks cs with
    | '"' :: rest =>
      match readString? rest with
      | none => none
      | some (key, rest) =>
        match skipBlanks rest with
        | ':' :: rest =>
          match readDocument? fuel rest with
          | none => none
          | some (value, rest) =>
            match skipBlanks rest with
            | ',' :: rest => readMembers? fuel rest ((key, value) :: gathered)
            | '\x7d' :: rest => some (ofMembers ((key, value) :: gathered).reverse, rest)
            | _ => none
        | _ => none
    | _ => none

end

/-- The document a text holds. -/
def read? (text : String) : Option Json :=
  match readDocument? (2 * text.length + 2) text.toList with
  | some (document, rest) => if (skipBlanks rest).isEmpty then some document else none
  | none => none

end PrivateQuery.Json
