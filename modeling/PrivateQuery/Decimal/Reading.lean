import PrivateQuery.Binary64.Exact
import PrivateQuery.Word.Signed

/-!
# Reading numbers from text

`Decimal.readFloat?` accepts an optional sign and either digits with an optional point and exponent,
or one of the words for an infinity and for no number in any case. The result is the double nearest
to what is written. `Decimal.readInt?` accepts an optional sign and digits, within the range of a
signed 64-bit word.
-/
namespace PrivateQuery.Decimal

/-- The number a string of decimal digits denotes. -/
def ofDigits (digits : List Char) : Nat :=
  digits.foldl (fun n c => 10 * n + (c.toNat - 48)) 0

/-- The sign in front of a number, and the rest. -/
def readSign : List Char → Bool × List Char
  | '-' :: rest => (true, rest)
  | '+' :: rest => (false, rest)
  | rest => (false, rest)

/-- A signed 64-bit integer. -/
def readInt? (text : String) : Option Int64 :=
  let (negative, digits) := readSign text.toList
  if digits.isEmpty || !digits.all Char.isDigit then none
  else Word.ofInt? (if negative then -(ofDigits digits : Int) else ofDigits digits)

/-- The double nearest to `± digits * 10 ^ exponent`. Far outside the range of doubles the answer is
known without computing the power. -/
def toFloat (negative : Bool) (digits : Nat) (exponent : Int) : Float :=
  let size : Int := (toString digits).length
  if digits == 0 || exponent + size < -400 then Binary64.signed negative 0
  else if 400 < exponent + size then Binary64.signed negative Binary64.infinity
  else if 0 ≤ exponent then Binary64.nearest negative (digits * Nat.pow 10 exponent.toNat) 1
  else Binary64.nearest negative digits (Nat.pow 10 (-exponent).toNat)

/-- The exponent that ends a number, zero when there is none. -/
def readExponent? : List Char → Option Int
  | [] => some 0
  | c :: rest =>
    if c == 'e' || c == 'E' then
      let (negative, digits) := readSign rest
      if digits.isEmpty || !digits.all Char.isDigit then none
      else if negative then some (-(ofDigits digits : Int))
      else some (ofDigits digits)
    else none

/-- Digits with an optional point and exponent. -/
def readUnsigned? (negative : Bool) (cs : List Char) : Option Float :=
  let whole := cs.takeWhile Char.isDigit
  let rest := cs.dropWhile Char.isDigit
  let (fraction, rest) := match rest with
    | '.' :: rest => (rest.takeWhile Char.isDigit, rest.dropWhile Char.isDigit)
    | _ => ([], rest)
  if whole.isEmpty && fraction.isEmpty then none
  else (readExponent? rest).map fun e =>
    toFloat negative (ofDigits (whole ++ fraction)) (e - fraction.length)

def lower (c : Char) : Char := if 'A' ≤ c && c ≤ 'Z' then Char.ofNat (c.toNat + 32) else c

/-- A double. -/
def readFloat? (text : String) : Option Float :=
  let (negative, rest) := readSign text.toList
  let word := String.ofList (rest.map lower)
  if word == "inf" || word == "infinity" then some (Binary64.signed negative Binary64.infinity)
  else if word == "nan" then some Binary64.nan
  else readUnsigned? negative rest

/-! ## Closed checks -/

example : readInt? "+7" = some 7 ∧ readInt? "9223372036854775808" = none := by decide +kernel
example : readInt? "-9223372036854775808" = some (-9223372036854775808) := by decide +kernel
example : readFloat? "5." = some 5.0 ∧ readFloat? ".5" = some 0.5 ∧ readFloat? "." = none := by
  decide +kernel
example : readFloat? "1e400" = some Binary64.infinity ∧ readFloat? "-1E-400" = some (-0.0) := by
  decide +kernel

end PrivateQuery.Decimal
