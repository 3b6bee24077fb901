import PrivateQuery.Machine.Run
import PrivateQuery.Pipeline.Basic
import PrivateQuery.Privacy.Library

/-!
# Assembly: `PipelineBuilder` and `Compiler`

The pass that assembles a pipeline: transforms are noted as operations on the frame, a measure picks
its aggregation, and when its noise is due the scale is calibrated against the budget.
-/
namespace PrivateQuery

/-- A measure that waits for its noise (`PendingMeasure`). -/
structure Pending where
  transformation : Transformation
  discrete : Bool
  label : String
  categories? : Option (List Value)
deriving DecidableEq

/-- A pipeline under construction (`PipelineBuilder`). -/
structure Assembly where
  projection : List FrameOperation
  pending? : Option Pending
  pipeline? : Option Pipeline
deriving DecidableEq

namespace Assembly

def empty : Assembly := ⟨[], none, none⟩

def note (a : Assembly) (operation : FrameOperation) : Assembly :=
  { a with projection := a.projection ++ [operation] }

/-! ## Measures -/

/-- The integers from one word to another, ascending. -/
def span (low high : Int64) : List Value :=
  (List.range (high.toInt - low.toInt + 1).toNat).map fun (i : Nat) =>
    .integer (Word.clamp (low.toInt + i))

/-- The categories of a bin: for an integer column all integers between its ends, otherwise its
values. -/
def categories (b : Bin) : ColumnType → Except QueryError (List Value)
  | .int .. =>
    let words := b.values.filterMap Value.toInt64?
    match words.min?, words.max? with
    | some low, some high => .ok (span low high)
    | _, _ => .error (.typing (.noIntegerBounds b))
  | .double .. => .error (.scope (.doubleHistogram b.column))
  | _ => .ok b.values

/-- A count, by categories if there is a bin. -/
def pendingCount (column : String) (type : ColumnType) : Option Bin → Except QueryError Pending
  | none => .ok ⟨.count column, true, column, none⟩
  | some b => do
    let categories ← categories b type
    return ⟨.countBy column categories, true, column, some categories⟩

/-- A sum: discrete of integers, continuous of doubles. -/
def pendingSum (column : String) : ColumnType → Except QueryError Pending
  | .int low high => .ok ⟨.integerSum column low high, true, column, none⟩
  | .double low high => .ok ⟨.floatSum column low high, false, column, none⟩
  | type => .error (.typing (.notNumeric column type))

/-! ## Noise -/

/-- The loss that a budget allows under a notion. -/
def target (budget : Budget) : Notion → Loss
  | .pureDP => .pure budget.epsilon
  | .approxDP => .approximate budget.epsilon budget.delta

/-- Whether the loss is to be stated for the `δ` of the budget. -/
def spendsDelta (budget : Budget) (notion : Notion) : Bool := notion = .approxDP && 0 < budget.delta

/-- The measurement of a pending measure at a scale. -/
def measurementAt (library : Library) (budget : Budget) (notion : Notion) (mechanism : Mechanism)
    (pending : Pending) (scale : Float) : Mechanism.Attempt Measurement := do
  let measurement ← library.addNoise pending.transformation mechanism pending.discrete scale
  if spendsDelta budget notion then Attempt.ofExcept (measurement.fixDelta budget.delta)
  else return measurement

/-- The measurement whose scale is calibrated to the budget. -/
def calibrated (library : Library) (budget : Budget) (notion : Notion) (mechanism : Mechanism)
    (pending : Pending) : Mechanism.Attempt Measurement := do
  let atScale := measurementAt library budget notion mechanism pending
  atScale (← library.calibrate atScale 1 (target budget notion))

/-- An error of a mechanism as one of the query. -/
def ofMechanism {α : Type} (a : Mechanism.Attempt α) : Attempt QueryError α :=
  Attempt.mapError (fun e => .execution (.mechanism e)) a

/-! ## The pass -/

/-- What an event makes of the assembly. -/
def after (library : Library) (parameters : Parameters) (a : Assembly) :
    Event → Attempt QueryError Assembly
  | .select columns => .ok (a.note (.select columns))
  | .filter predicate => .ok (a.note (.filter predicate))
  | .rename old new stage =>
    if stage = .noiseAdded then
      match a.pipeline? with
      | some pipeline => .ok { a with pipeline? := some (pipeline.relabel old new) }
      | none => Attempt.raise (.order .noNoise)
    else .ok (a.note (.rename old new))
  | .bin _ _ => .ok a
  | .count column type bin? _ => do
    let pending ← Attempt.ofExcept (pendingCount column type bin?)
    return { a with pending? := some pending }
  | .sum column type _ => do
    let pending ← Attempt.ofExcept (pendingSum column type)
    return { a with pending? := some pending }
  | .noise budget notion mechanism =>
    match a.pending? with
    | none => Attempt.raise (.order .noMeasure)
    | some pending => do
      let measurement ← ofMechanism (calibrated library budget notion mechanism pending)
      let pipeline : Pipeline :=
        ⟨a.projection, measurement, pending.label, pending.categories?, parameters.seed?⟩
      return { a with pipeline? := some pipeline }

/-- The pass that assembles with a library. An event that fails changes nothing. -/
def pass (library : Library) (parameters : Parameters) : Pass Assembly (Fault QueryError) where
  observe event a :=
    match after library parameters a event with
    | .ok a => (.ok (), a)
    | .error fault => (.error fault, a)
  ofError := .raised

end Assembly

/-! ## Compilation -/

/-- Compile a query: run it with the assembling pass. -/
def compile (library : Library) (parameters : Parameters) (budget : Budget) (notion : Notion)
    (schema : Schema) (steps : List Step) : Attempt QueryError (Course Assembly) :=
  Course.run (Assembly.pass library parameters) (.of budget notion parameters) steps
    (.start schema .empty)

namespace Course

/-- The pipeline of a query whose noise has been added. -/
def pipeline (c : Course Assembly) : Except QueryError Pipeline :=
  match c.standing.stage, c.state.pipeline? with
  | .noiseAdded, some pipeline => .ok pipeline
  | _, _ => .error (.order .noNoise)

/-- The pipeline of a query that is complete (`Compiler.try_build`). -/
def build (c : Course Assembly) : Except QueryError Pipeline := do
  c.standing.finish
  match c.state.pipeline? with
  | some pipeline => return pipeline
  | none => .error (.order .noNoise)

end Course

end PrivateQuery
