import PrivateQuery.Json.Decoding
import PrivateQuery.Schema.Basic

/-!
# Columns in documents

The type of a column is a record that names its kind, followed by the bounds or labels of the kind.
-/
namespace PrivateQuery

namespace ColumnType

def decode : Json.Decoder ColumnType := fun p document => do
  let (kind, body) ← Json.taggedWith "name" ["Int", "Double", "Enum", "Bool", "Text"] p document
  if kind == "Int" then
    let fields ← Json.fieldsOf ["low", "high"] body
    some (.int (← fields.required p "low" .signed) (← fields.required p "high" .signed))
  else if kind == "Double" then
    let fields ← Json.fieldsOf ["low", "high"] body
    some (.double (← fields.required p "low" .float) (← fields.required p "high" .float))
  else if kind == "Enum" then
    let fields ← Json.fieldsOf ["labels"] body
    some (.labelled (← fields.required p "labels" (.list .text)))
  else
    -- The kinds without fields take any members, and no items.
    match body with
    | .array (_ :: _) => none
    | _ => some (if kind == "Bool" then .bool else .text)

def toJson (type : ColumnType) : Json :=
  let kind := ("name", Json.text type.name)
  match type with
  | int low high => .object [kind, ("low", .integer low.toInt), ("high", .integer high.toInt)]
  | double low high => .object [kind, ("low", .ofFloat low), ("high", .ofFloat high)]
  | labelled labels => .object [kind, ("labels", .array (labels.map .text))]
  | bool | text => .object [kind]

end ColumnType

namespace Column

def decode : Json.Decoder Column := fun p document => do
  let fields ← Json.fieldsOf ["name", "type"] document
  some ⟨← fields.required p "name" .text, ← fields.required p "type" ColumnType.decode⟩

def toJson (column : Column) : Json :=
  .object [("name", .text column.name), ("type", column.type.toJson)]

end Column

end PrivateQuery
