import PrivateQuery.Json.Tree
import PrivateQuery.Binary64.Exact
import PrivateQuery.Word.Signed
import PrivateQuery.Dictionary

/-!
# From documents to records

A decoder looks at one place of a document and has no answer where the document is not of its shape.
A record is an object with its fields by name, or an array with its fields in order: members of
other names are skipped, a field given twice is refused, and a field that is absent takes its
default if it has one.
-/
namespace PrivateQuery.Json

/-- What a decoder knows of the place it looks at. -/
structure Place where
  /-- How many levels of brackets a part that is kept as it is may have here. -/
  levels : Nat
  /-- Whether the part was held back whole before it is decoded. There a name may also be given by
  its position, and an empty object stands for null after a name. -/
  held : Bool

def Place.outermost : Place := ⟨127, false⟩

def Place.inside (p : Place) : Place := { p with levels := p.levels - 1 }

abbrev Decoder (α : Type) := Place → Json → Option α

namespace Decoder

variable {α : Type}

def text : Decoder String
  | _, .text s => some s
  | _, _ => none

def float : Decoder Float
  | _, .integer i => some (Binary64.ofInt i)
  | _, .real x => some x
  | _, _ => none

/-- A number written without point or exponent that a signed word holds. -/
def signed : Decoder Int64
  | _, .integer i => Word.ofInt? i
  | _, _ => none

/-- A natural number written without point or exponent. -/
def natural : Decoder Nat
  | _, .integer i => if 0 ≤ i then some i.toNat else none
  | _, _ => none

/-- A part that is kept as it is. -/
def anything : Decoder Json
  | p, document => if document.readable p.levels then some document else none

/-- Null for nothing. -/
def optional (decode : Decoder α) : Decoder (Option α)
  | _, .null => some none
  | p, document => (decode p document).map some

def list (decode : Decoder α) : Decoder (List α)
  | p, .array items => items.mapM (decode p.inside)
  | _, _ => none

/-- Only an object; of a key given twice the last counts. -/
def dictionary (decode : Decoder α) : Decoder (Dictionary α)
  | p, .object members =>
    (members.mapM fun (member : String × Json) =>
      (decode p.inside member.2).map fun a => (member.1, a)).map Dictionary.ofList
  | _, _ => none

/-- One of some names, as a string or as the key of an object that holds nothing else. -/
def choice (names : List (String × α)) : Decoder α
  | _, .text name => names.lookup name
  | _, .object [(name, .null)] => names.lookup name
  | p, .object [(name, .object [])] => if p.held then names.lookup name else none
  | _, _ => none

end Decoder

/-! ## Records -/

/-- The fields of a record under their names. -/
abbrev Fields := List (String × Json)

/-- The fields that a document gives for a record with these field names. -/
def fieldsOf (names : List String) : Json → Option Fields
  | .object members =>
    let known := members.filter fun member => names.contains member.1
    if (known.map Prod.fst).Nodup then some known else none
  | .array items => if items.length ≤ names.length then some (names.zip items) else none
  | _ => none

def Fields.required {α : Type} (fields : Fields) (p : Place) (name : String) (decode : Decoder α) :
    Option α :=
  (fields.lookup name).bind (decode p.inside)

def Fields.getD {α : Type} (fields : Fields) (p : Place) (name : String) (decode : Decoder α)
    (default : α) : Option α :=
  match fields.lookup name with
  | some document => decode p.inside document
  | none => some default

/-- A record of one of several kinds: the kind, given by the field `tag` or by the first item, and
the record without it. The document is kept whole until its kind is known. -/
def taggedWith (tag : String) (kinds : List String) (p : Place) (document : Json) :
    Option (String × Json) :=
  let kind? : Json → Option String
    | .text name => if kinds.contains name then some name else none
    | .integer i => if p.held && 0 ≤ i then kinds[i.toNat]? else none
    | _ => none
  if !document.readable p.levels then none
  else
    match document with
    | .object members =>
      match members.filter fun member => member.1 == tag with
      | [(_, name)] =>
        (kind? name).map fun kind =>
          (kind, .object (members.filter fun member => member.1 != tag))
      | _ => none
    | .array (name :: items) => (kind? name).map fun kind => (kind, .array items)
    | _ => none

end PrivateQuery.Json
