import PrivateQuery.Json.Reader
import PrivateQuery.Json.Writer
import PrivateQuery.Query.RawStep
import PrivateQuery.Schema.Wire

/-!
# Requests: `QueryRequest` and `AccuracyRequest`

A request names a dataset and its schema and asks for a query under a budget; an accuracy request
asks how far the answer may be off at a confidence. A request that is read has steps of the right
form. Its schema is only checked when it is used.
-/
namespace PrivateQuery

structure Request where
  budget : Budget
  steps : List Step
  notion : Notion
  dataset : Nat
  columns : List Column

/-- A request with its steps as they were sent. -/
structure RawRequest where
  budget : Budget
  steps : List RawStep
  notion : Notion
  dataset : Nat
  columns : List Column

namespace RawRequest

def fieldNames : List String := ["budget", "query", "privacy_notion", "dataset", "schema"]

def ofFields (p : Json.Place) (fields : Json.Fields) : Option RawRequest := do
  some {
    budget := ← fields.required p "budget" Budget.decode
    steps := ← fields.required p "query" (.list RawStep.decode)
    notion := ← fields.required p "privacy_notion" Notion.decode
    dataset := ← fields.required p "dataset" .natural
    columns := ← fields.required p "schema" (.list Column.decode) }

def decode : Json.Decoder RawRequest := fun p document => do
  ofFields p (← Json.fieldsOf fieldNames document)

def toRequest (r : RawRequest) : Except QueryError Request := do
  return ⟨r.budget, ← r.steps.mapM RawStep.toStep, r.notion, r.dataset, r.columns⟩

end RawRequest

namespace Request

/-- The request that a text holds (`QueryRequest.from_json`). -/
def parse (source : String) : Except QueryError Request :=
  match (Json.read? source).bind (RawRequest.decode .outermost) with
  | some raw => raw.toRequest
  | none => .error (.form .malformed)

/-- The schema of the dataset. -/
def schema (r : Request) : Except QueryError Schema :=
  (Schema.ofColumns r.columns).mapError fun e => .form (.schema e)

def members (r : Request) : List (String × Json) :=
  [("budget", r.budget.toJson), ("query", .array (r.steps.map Step.toJson)),
    ("privacy_notion", r.notion.toJson), ("dataset", .integer r.dataset),
    ("schema", .array (r.columns.map Column.toJson))]

def toJson (r : Request) : Json := .object r.members

end Request

/-- Whether an answer can be asked for at this confidence. -/
def isConfidence (x : Float) : Bool := 0 < x && x < 1

/-- A request for the accuracy of a query at a confidence between zero and one. -/
structure AccuracyRequest where
  query : Request
  confidence : Float
  /-- The confidence lies between zero and one. -/
  isConfidence_confidence : isConfidence confidence = true

namespace AccuracyRequest

def ofRequest (query : Request) (confidence : Float) : Except QueryError AccuracyRequest :=
  if h : isConfidence confidence = true then .ok ⟨query, confidence, h⟩
  else .error (.form (.confidence confidence))

/-- The request and the confidence of a document, which must be an object. All of it but the
confidence is held back until the whole object has been read. -/
def decode : Json.Decoder (RawRequest × Float) := fun p document =>
  match document with
  | .object members => do
    let others := members.filter fun member => member.1 != "confidence"
    if !Json.readableMembers p.inside.levels others then none
    else
      let confidence ← Json.fieldsOf ["confidence"] document
      let fields ← Json.fieldsOf RawRequest.fieldNames (.object others)
      some (← RawRequest.ofFields { p with held := true } fields,
        ← confidence.required p "confidence" .float)
  | _ => none

def parse (source : String) : Except QueryError AccuracyRequest := do
  match (Json.read? source).bind (decode .outermost) with
  | some (raw, confidence) => ofRequest (← raw.toRequest) confidence
  | none => .error (.form .malformed)

/-- The probability that is left for larger errors. -/
def alpha (r : AccuracyRequest) : Float := 1 - r.confidence

def toJson (r : AccuracyRequest) : Json :=
  .object (r.query.members ++ [("confidence", .ofFloat r.confidence)])

end AccuracyRequest

end PrivateQuery
