import PrivateQuery.Binary64.Exact

/-!
# JSON documents

A document as a tree. Objects keep their members in the order of the text, repeated keys included:
what a repeated key means is for the reader of the object to say.

A text can be well formed and still denote nothing: a number beyond the doubles, a string with half
of a surrogate pair. Such a place is `broken`. Who skips it never notices, who reads it fails; and
who keeps a part of a document as it is needs the whole part to be `readable`.
-/
namespace PrivateQuery

inductive Json where
  | null
  | boolean (b : Bool)
  /-- A number written without point or exponent, from `-2 ^ 63` to `2 ^ 64 - 1`. -/
  | integer (i : Int)
  | real (x : Float)
  | text (s : String)
  | array (items : List Json)
  | object (members : List (String × Json))
  /-- Well formed, but nothing that can be read. -/
  | broken

namespace Json

/-- The number for a double, which JSON has only for finite ones. -/
def ofFloat (x : Float) : Json := if x.isFinite then .real x else .null

mutual

/-- Whether nothing inside is broken and brackets nest at most `levels` deep. -/
def readable : (levels : Nat) → Json → Bool
  | _, .broken => false
  | levels, .array items => 0 < levels && readableItems (levels - 1) items
  | levels, .object members => 0 < levels && readableMembers (levels - 1) members
  | _, _ => true

def readableItems : (levels : Nat) → List Json → Bool
  | _, [] => true
  | levels, item :: items => readable levels item && readableItems levels items

def readableMembers : (levels : Nat) → List (String × Json) → Bool
  | _, [] => true
  | levels, (_, value) :: members => readable levels value && readableMembers levels members

end

end Json

end PrivateQuery
