import PrivateQuery.Value.Basic
import PrivateQuery.Json.Decoding

/-!
# Values in documents

A value is written without saying its kind: a number is an integer if a signed word holds it and it
has neither point nor exponent, and a double otherwise.
-/
namespace PrivateQuery.Value

def decode : Json.Decoder Value
  | _, .null => some .null
  | _, .boolean b => some (.boolean b)
  | _, .integer i =>
    match Word.ofInt? i with
    | some word => some (.integer word)
    | none => some (.real (Binary64.ofInt i))
  | _, .real x => some (.real x)
  | _, .text s => some (.text s)
  | _, _ => none

def toJson : Value → Json
  | .null => .null
  | .boolean b => .boolean b
  | .integer i => .integer i.toInt
  | .real x => .ofFloat x
  | .text s => .text s

/-- A value is read back as it was written, wherever it stands, unless it is a double that JSON
lacks. -/
theorem decode_toJson {v : Value} (h : ∀ x, v = .real x → x.isFinite = true) (p : Json.Place) :
    decode p v.toJson = some v := by
  cases v with
  | integer i => simp [toJson, decode, Word.ofInt?_eq_some_iff.2 (rfl : i.toInt = i.toInt)]
  | real x => simp [toJson, Json.ofFloat, h x rfl, decode]
  | _ => rfl

end PrivateQuery.Value
