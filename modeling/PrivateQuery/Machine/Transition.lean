import PrivateQuery.Machine.Event
import PrivateQuery.Predicate.Grammar
import PrivateQuery.Query.Compatibility
import PrivateQuery.Query.Parameters

/-!
# Transitions: the operations of `Grammar`

What one operation does to a query, on the schema alone: whether it is accepted, which events follow
and where the query then stands.

    awaiting transform  --select, filter, rename-->  awaiting transform
    awaiting transform  --bin-->  awaiting count  --count-->  measuring
    awaiting transform  --count, sum-->  measuring  --noise-->  noise added
    noise added  --rename-->  noise added

A count or a sum is two operations, the measure and its noise.
-/
namespace PrivateQuery

/-- What holds for a whole query. -/
structure Terms where
  budget : Budget
  notion : Notion
  /-- The most categories that a bin of integers may span. -/
  maxCategories : Nat

def Terms.of (budget : Budget) (notion : Notion) (parameters : Parameters) : Terms :=
  ⟨budget, notion, parameters.maxCategories⟩

/-- Where a query stands: its working schema and its stage. -/
structure Standing where
  schema : Schema
  stage : Stage

def Standing.start (schema : Schema) : Standing := ⟨schema, .awaitingTransform⟩

inductive Operation where
  | select (columns : List String)
  | filter (predicates : List String)
  | rename (mapping : Dictionary String)
  | bin (bin : Bin)
  | count (measure : Measure)
  | sum (measure : Measure)
  | noise

/-- The operations that make up a step. -/
def Step.operations : Step → List Operation
  | .select columns => [.select columns]
  | .filter predicates => [.filter predicates]
  | .rename mapping => [.rename mapping]
  | .bin b => [.bin b]
  | .count measure => [.count measure, .noise]
  | .sum measure => [.sum measure, .noise]

/-- What an accepted operation does. -/
structure Move where
  events : List Event
  next : Standing

namespace Transition

def orderError {α : Type} (cause : OrderError) : Except QueryError α := .error (.order cause)

/-- Report an error of the schema as one of the query. -/
def onSchema {α : Type} (r : Except SchemaError α) : Except QueryError α :=
  r.mapError fun e => .order (.schema e)

/-! ## Transforms -/

/-- Refuse what is only allowed before a bin or a measure (`expect_awaiting_transform`). -/
def expectTransform (operation : String) (stage : Stage) : Except QueryError Unit :=
  match stage with
  | .awaitingTransform => .ok ()
  | _ => orderError (.notAllowed operation stage)

def select (s : Standing) (columns : List String) : Except QueryError Move := do
  expectTransform "select" s.stage
  let schema ← onSchema (s.schema.select columns)
  return ⟨[.select columns], { s with schema }⟩

/-- The first predicate that uses a column the schema lacks, with the column. -/
def foreignColumn? (schema : Schema) (predicates : List Predicate) : Option (Predicate × String) :=
  predicates.findSome? fun p =>
    (p.columns.find? fun column => !schema.contains column).map fun column => (p, column)

def filter (s : Standing) (texts : List String) : Except QueryError Move := do
  expectTransform "filter" s.stage
  let predicates ← (texts.mapM Predicate.parse).mapError fun e => .order (.predicate e)
  match foreignColumn? s.schema predicates with
  | some (p, column) => orderError (.columnOfFilter p column s.schema)
  | none => return ⟨predicates.map .filter, s⟩

/-- Rename column after column. Once noise has been added a new name may be taken from a column that
is not released. -/
def renameAll (stage : Stage) (mapping : List (String × String)) (schema : Schema) :
    Except SchemaError Schema :=
  mapping.foldlM (fun (schema : Schema) (old, new) =>
    if stage = .noiseAdded then schema.replace old new else schema.rename old new) schema

def rename (s : Standing) (mapping : Dictionary String) : Except QueryError Move :=
  if s.stage = .awaitingTransform ∨ s.stage = .noiseAdded then do
    let schema ← onSchema (renameAll s.stage mapping.entries s.schema)
    return ⟨mapping.entries.map fun (old, new) => .rename old new s.stage, { s with schema }⟩
  else orderError (.notAllowed "rename" s.stage)

/-! ## Bins -/

/-- The integers of a list, or the first value that is none. -/
def integers : List Value → Except Value (List Int64)
  | [] => .ok []
  | .integer i :: values => (integers values).map (i :: ·)
  | v :: _ => .error v

/-- Whether each word is less than the next. -/
def ascends : List Int64 → Bool
  | a :: b :: rest => a < b && ascends (b :: rest)
  | _ => true

/-- Bins of an integer column span at least two ascending integers, and not too many
(`check_integer_bins`). -/
def checkIntegerBins (most : Nat) (b : Bin) : Except QueryError Unit :=
  if b.values.length < 2 then .error (.typing (.tooFewBins b.column))
  else
    match integers b.values with
    | .error v => .error (.typing (.integerBin b.column v))
    | .ok words =>
      let count := (words.getLastD 0).toInt - (words.headD 0).toInt + 1
      if !ascends words then .error (.typing (.unorderedBins b.column))
      else if count > most then .error (.scope (.tooManyCategories b.column count most))
      else .ok ()

/-- The values of a bin must suit the type of its column (`Grammar.bin`). -/
def checkBins (most : Nat) (b : Bin) : ColumnType → Except QueryError Unit
  | .int .. => checkIntegerBins most b
  | .bool =>
    if b.values.all Value.isBoolean then .ok () else .error (.typing (.booleanBins b.column))
  | .double .. => .error (.scope (.doubleBins b.column))
  | type =>
    if b.values.all Value.isText then .ok () else .error (.typing (.textBins b.column type))

def bin (terms : Terms) (s : Standing) (b : Bin) : Except QueryError Move := do
  match s.stage with
  | .awaitingTransform => pure ()
  | .awaitingCount _ => orderError .secondBin
  | stage => orderError (.notAllowed "bin" stage)
  let type ← onSchema (s.schema.typeOf b.column)
  if !Value.allDistinct b.values then .error (.typing (.repeatedBins b.column))
  checkBins terms.maxCategories b type
  return ⟨[.bin b type], { s with stage := .awaitingCount b }⟩

/-! ## Measures -/

/-- The bin that a count is of, if it may be counted at this stage. -/
def binToCount (stage : Stage) : Except QueryError (Option Bin) :=
  match stage with
  | .awaitingTransform => .ok none
  | .awaitingCount b => .ok (some b)
  | stage => orderError (.notAllowed "count" stage)

def count (s : Standing) (measure : Measure) : Except QueryError Move := do
  let bin? ← binToCount s.stage
  let type ← onSchema (s.schema.typeOf measure.column)
  match bin? with
  | some b => if b.column ≠ measure.column then orderError (.notTheBinned measure.column b.column)
  | none => pure ()
  return ⟨[.count measure.column type bin? measure.mechanism],
    { s with stage := .measuring measure.mechanism }⟩

/-- The larger of the sizes of the bounds of a numeric column. -/
def sumBound : ColumnType → Float
  | .int low high =>
    Binary64.maximum (Binary64.ofInt low.toInt).abs (Binary64.ofInt high.toInt).abs
  | .double low high => Binary64.maximum low.abs high.abs
  | _ => 0

def sum (terms : Terms) (s : Standing) (measure : Measure) : Except QueryError Move := do
  match s.stage with
  | .awaitingTransform => pure ()
  | .awaitingCount _ => orderError .sumAfterBin
  | stage => orderError (.notAllowed "sum" stage)
  let type ← onSchema (s.schema.typeOf measure.column)
  if !type.isNumeric then .error (.typing (.notNumeric measure.column type))
  let bound := sumBound type
  if 0 < terms.budget.epsilon ∧ ¬ bound / terms.budget.epsilon ≤ maxSumScale then
    .error (.scope (.sumScale measure.column bound terms.budget))
  return ⟨[.sum measure.column type measure.mechanism],
    { s with stage := .measuring measure.mechanism }⟩

def noise (terms : Terms) (s : Standing) : Except QueryError Move :=
  match s.stage with
  | .measuring mechanism => do
    (checkCompatibility terms.budget terms.notion mechanism).mapError .compatibility
    return ⟨[.noise terms.budget terms.notion mechanism], { s with stage := .noiseAdded }⟩
  | stage => orderError (.noiseNotDue stage)

end Transition

/-- What an operation does to a query that stands somewhere, or why it is refused. -/
def transition (terms : Terms) (s : Standing) : Operation → Except QueryError Move
  | .select columns => Transition.select s columns
  | .filter predicates => Transition.filter s predicates
  | .rename mapping => Transition.rename s mapping
  | .bin b => Transition.bin terms s b
  | .count measure => Transition.count s measure
  | .sum measure => Transition.sum terms s measure
  | .noise => Transition.noise terms s

end PrivateQuery
