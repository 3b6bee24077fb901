import PrivateQuery.Decimal.Digits

/-!
# Writing doubles

Three layouts of the same shortest digits, and one with ten digits: `Decimal.plain` never writes an
exponent, `Decimal.wire` is the layout of numbers in JSON, `Decimal.tagged` always shows that the
number is a double, and `Decimal.scientific` rounds to a fixed number of digits.
-/
namespace PrivateQuery.Decimal

def zeros (n : Nat) : String := String.ofList (List.replicate n '0')

/-- The decimal point put after the first `point` characters of `digits`. -/
def pointAfter (point : Nat) (digits : String) : String :=
  let cs := digits.toList
  String.ofList (cs.take point) ++ "." ++ String.ofList (cs.drop point)

/-- The exponent of the leading digit. -/
def leading (d : Decimal) : Int := d.exponent + (toString d.digits).length - 1

/-- All digits of the number in full, with `fraction` written after an integer. -/
def positional (fraction : String) (d : Decimal) : String :=
  let digits := toString d.digits
  if 0 ≤ d.exponent then digits ++ zeros d.exponent.toNat ++ fraction
  else
    let places := (-d.exponent).toNat
    if places < digits.length then pointAfter (digits.length - places) digits
    else "0." ++ zeros (places - digits.length) ++ digits

/-- One digit, the others after a point, and the exponent of the first. -/
def exponential (plusSign : Bool) (d : Decimal) : String :=
  let digits := toString d.digits
  let mantissa := if digits.length ≤ 1 then digits else pointAfter 1 digits
  let e := leading d
  mantissa ++ "e" ++ (if 0 ≤ e && plusSign then "+" else "") ++ toString e

/-- How a double is written. -/
structure Layout where
  notANumber : String
  infinite : (negative : Bool) → String
  zero : String
  /-- Positive finite numbers. -/
  finite : (significand : Nat) → (exponent : Int) → String

def sign (negative : Bool) : String := if negative then "-" else ""

def Layout.write (layout : Layout) (x : Float) : String :=
  match Binary64.read x with
  | .nan => layout.notANumber
  | .infinite negative => layout.infinite negative
  | .finite negative significand exponent =>
    sign negative ++
      if significand == 0 then layout.zero else layout.finite significand exponent

/-- The text of an infinity outside JSON, which has none. -/
def infinityText (negative : Bool) : String := sign negative ++ "inf"

/-- Values and messages: every digit in full and no decimals on an integer. -/
def plain (x : Float) : String :=
  Layout.write ⟨"NaN", infinityText, "0", fun m e => positional "" (shortest .up m e)⟩ x

/-- JSON numbers: in full with at least one decimal while the leading digit is between `10 ^ -5` and
`10 ^ 15`, otherwise with a
signed exponent; what is not finite is null. -/
def wire (x : Float) : String :=
  Layout.write ⟨"null", fun _ => "null", "0.0", fun m e =>
    let d := shortest .even m e
    if -5 ≤ leading d && leading d ≤ 15 then positional ".0" d else exponential true d⟩ x

/-- Diagnostics: at least one decimal, and an exponent below `10 ^ -4` and from `10 ^ 16` on. -/
def tagged (x : Float) : String :=
  Layout.write ⟨"NaN", infinityText, "0.0", fun m e =>
    let d := shortest .up m e
    if -4 ≤ leading d && leading d ≤ 15 then positional ".0" d else exponential false d⟩ x

def scientific (places : Nat) (x : Float) : String :=
  Layout.write ⟨"NaN", infinityText, "0", fun m e => exponential false (rounded places m e)⟩ x

/-! ## Closed checks -/

example : plain 1e21 = "1000000000000000000000" := by decide +kernel
example : plain (-0.0) = "-0" ∧ plain 0.00001 = "0.00001" := by decide +kernel
example : wire 1e16 = "1e+16" ∧ wire 1e-9 = "1e-9" ∧ wire 0.00001 = "0.00001" := by decide +kernel
example : wire 1000000000000000.0 = "1000000000000000.0" ∧ wire 1.5e300 = "1.5e+300" := by
  decide +kernel
example : scientific 9 3e12 = "3.000000000e12" ∧ scientific 9 (-2.25e-7) = "-2.250000000e-7" := by
  decide +kernel

end PrivateQuery.Decimal
