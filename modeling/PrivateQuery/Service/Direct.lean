import PrivateQuery.Frame.Csv
import PrivateQuery.Pipeline.Assembly
import PrivateQuery.Pipeline.Release

/-!
# Direct answers: `validate`, `compile_and_evaluate`, `compile_and_accuracy`

A query answered on a payload at hand, with the standard library under standard parameters. A
query is type checked before it is compiled. What crashes on the way is reported as an error of
what the query is run on.
-/
namespace PrivateQuery

/-- The answer to the question whether a query is valid (`Validation`). -/
inductive Verdict where
  | valid
  | invalid (reason : QueryError)

namespace Verdict

def ofCheck {α : Type} : Except QueryError α → Verdict
  | .ok _ => valid
  | .error reason => invalid reason

def isValid : Verdict → Bool
  | valid => true
  | invalid _ => false

def status : Verdict → String
  | valid => "query is valid"
  | invalid reason => reason.message

end Verdict

/-- Compile a query that passes the check on the schema alone (`compile`). -/
def checkAndCompile (library : Library) (parameters : Parameters) (budget : Budget)
    (notion : Notion) (schema : Schema) (steps : List Step) :
    Attempt QueryError (Course Assembly) := do
  let _ ← Attempt.ofExcept (typecheck (.of budget notion parameters) schema steps)
  compile library parameters budget notion schema steps

/-- The frame of a payload (`Dataset.from_csv`). -/
def readPayload (payload : String) (schema : Schema) : Attempt QueryError Frame :=
  Attempt.ofExcept ((Frame.ofCsv payload schema).mapError fun e => .execution (.frame e))

namespace Course

/-- Evaluate a compiled query on a frame, with the generator that belongs to its seed. -/
def evaluate (c : Course Assembly) (attempts : Nat) (generator : Option Nat → Generator)
    (frame : Frame) : Attempt QueryError Evaluation := do
  let pipeline ← Attempt.ofExcept c.pipeline
  (pipeline.evaluate attempts frame (generator pipeline.seed?)).1

/-- The bound on the noise of a compiled query at a confidence. -/
def accuracy (c : Course Assembly) (library : Library) (confidence : Float) :
    Attempt QueryError Float := do
  let pipeline ← Attempt.ofExcept c.pipeline
  pipeline.accuracy library confidence

end Course

/-- The error of an operation that crashed. -/
def crashError (operation : String) : QueryError := .execution (.crashed operation)

/-- Validate a query without data. -/
def validate (budget : Budget) (notion : Notion) (schema : Schema) (steps : List Step) : Verdict :=
  .ofCheck (typecheck (.of budget notion .standard) schema steps)

/-- Compile a query and run it on a payload (`compile_and_evaluate`). The query is compiled before
the payload is read. -/
def compileAndEvaluate (attempts : Nat) (generator : Option Nat → Generator) (budget : Budget)
    (notion : Notion) (schema : Schema) (steps : List Step) (payload : String) :
    Attempt QueryError Evaluation :=
  Attempt.recover (crashError "evaluation") do
    let course ←
      checkAndCompile (.standard .standard) .standard budget notion schema steps
    course.evaluate attempts generator (← readPayload payload schema)

/-- Compile a query and bound its noise (`compile_and_accuracy`). The payload is read before the
query is compiled. -/
def compileAndAccuracy (budget : Budget) (notion : Notion) (schema : Schema) (steps : List Step)
    (payload : String) (confidence : Float) : Attempt QueryError Float :=
  Attempt.recover (crashError "accuracy") do
    let _ ← readPayload payload schema
    let library := Library.standard .standard
    let course ← checkAndCompile library .standard budget notion schema steps
    course.accuracy library confidence

end PrivateQuery
