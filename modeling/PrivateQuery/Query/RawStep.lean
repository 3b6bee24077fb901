import PrivateQuery.Query.Error
import PrivateQuery.Value.Wire

/-!
# Raw steps

A step as a client sends it: a record with one field per operation, exactly one of which is set.
`RawStep.toStep` makes a step of a record that is complete, `RawStep.ofStep` goes back.
-/
namespace PrivateQuery

/-- A measure whose parts may be missing. -/
structure RawMeasure where
  column : Option String
  mechanism : Option Mechanism
deriving DecidableEq, Repr

/-- Eleven operations, six of which are supported. -/
structure RawStep where
  select : Option (List String)
  filter : Option (List String)
  rename : Option (Dictionary String)
  map : Option Json
  bin : Option (Dictionary (List Value))
  count : Option RawMeasure
  min : Option Json
  max : Option Json
  sum : Option RawMeasure
  mean : Option Json
  groupby : Option Json

namespace RawMeasure

def decode : Json.Decoder RawMeasure := fun p document => do
  let fields ← Json.fieldsOf ["column", "mech"] document
  some ⟨← fields.getD p "column" (.optional .text) none,
    ← fields.getD p "mech" (.optional Mechanism.decode) none⟩

def toMeasure : RawMeasure → Except FormError Measure
  | ⟨some column, some mechanism⟩ => .ok ⟨column, mechanism⟩
  | ⟨none, _⟩ => .error .noMeasuredColumn
  | ⟨some _, none⟩ => .error .noMechanism

def ofMeasure (m : Measure) : RawMeasure := ⟨some m.column, some m.mechanism⟩

end RawMeasure

namespace RawStep

/-- The record with nothing set. -/
def blank : RawStep := ⟨none, none, none, none, none, none, none, none, none, none, none⟩

def decode : Json.Decoder RawStep := fun p document => do
  let fields ← Json.fieldsOf ["select", "filter", "rename", "map", "bin", "count", "min", "max",
    "sum", "mean", "groupby"] document
  let texts : Json.Decoder (Option (List String)) := .optional (.list .text)
  let measure : Json.Decoder (Option RawMeasure) := .optional RawMeasure.decode
  let anything : Json.Decoder (Option Json) := .optional .anything
  some {
    select := ← fields.getD p "select" texts none
    filter := ← fields.getD p "filter" texts none
    rename := ← fields.getD p "rename" (.optional (.dictionary .text)) none
    map := ← fields.getD p "map" anything none
    bin := ← fields.getD p "bin" (.optional (.dictionary (.list Value.decode))) none
    count := ← fields.getD p "count" measure none
    min := ← fields.getD p "min" anything none
    max := ← fields.getD p "max" anything none
    sum := ← fields.getD p "sum" measure none
    mean := ← fields.getD p "mean" anything none
    groupby := ← fields.getD p "groupby" anything none }

/-- The names of the operations that are set. -/
def operations (r : RawStep) : List String :=
  let set : List (String × Bool) :=
    [("select", r.select.isSome), ("filter", r.filter.isSome), ("rename", r.rename.isSome),
      ("map", r.map.isSome), ("bin", r.bin.isSome), ("count", r.count.isSome),
      ("min", r.min.isSome), ("max", r.max.isSome), ("sum", r.sum.isSome),
      ("mean", r.mean.isSome), ("groupby", r.groupby.isSome)]
  (set.filter Prod.snd).map Prod.fst

/-- The column and the values of a bin, which must have one column. -/
def toBin (bin : Dictionary (List Value)) : Except FormError Bin :=
  match bin.entries with
  | [(column, values)] => .ok ⟨column, values⟩
  | entries => .error (.binColumns entries.length)

/-- The step that a record with a single operation describes (`Step.try_from`). -/
def toStep (r : RawStep) : Except QueryError Step :=
  match r.operations with
  | [] => .error (.form .noOperation)
  | [name] =>
    match r with
    | { select := some columns, .. } => .ok (.select columns)
    | { filter := some predicates, .. } => .ok (.filter predicates)
    | { rename := some mapping, .. } => .ok (.rename mapping)
    | { bin := some bin, .. } => ((toBin bin).map Step.bin).mapError .form
    | { count := some measure, .. } => (measure.toMeasure.map Step.count).mapError .form
    | { sum := some measure, .. } => (measure.toMeasure.map Step.sum).mapError .form
    | _ => .error (.scope (.operation name))
  | names => .error (.form (.severalOperations names))

/-- The record of a step (`RawStep.from`). -/
def ofStep : Step → RawStep
  | .select columns => { blank with select := some columns }
  | .filter predicates => { blank with filter := some predicates }
  | .rename mapping => { blank with rename := some mapping }
  | .bin b => { blank with bin := some (Dictionary.empty.insert b.column b.values) }
  | .count measure => { blank with count := some (.ofMeasure measure) }
  | .sum measure => { blank with sum := some (.ofMeasure measure) }

end RawStep

namespace Step

def measureJson (m : Measure) : Json :=
  .object [("column", .text m.column), ("mech", m.mechanism.toJson)]

/-- A step as the record that has its operation set and leaves out the others. -/
def toJson (step : Step) : Json :=
  let content : Json := match step with
    | .select columns => .array (columns.map .text)
    | .filter predicates => .array (predicates.map .text)
    | .rename mapping => .object (mapping.entries.map fun (old, new) => (old, .text new))
    | .bin b => .object [(b.column, .array (b.values.map Value.toJson))]
    | .count measure | .sum measure => measureJson measure
  .object [(step.name, content)]

end Step

end PrivateQuery
