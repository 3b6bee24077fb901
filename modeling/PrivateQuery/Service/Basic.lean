import PrivateQuery.Service.Cache
import PrivateQuery.Service.Direct

/-!
# The service: `QueryService`

The service answers requests about the datasets of a provider, which it caches. An invalid query is
refused before its dataset is asked for; a request that fails later leaves the cache as it is then.
-/
namespace PrivateQuery

structure Service (σ : Type) where
  provider : Provider σ
  library : Library
  parameters : Parameters
  /-- The generator for a seed, or a fresh one. -/
  generator : Option Nat → Generator
  /-- The attempts of a sampler before it stalls. -/
  attempts : Nat

namespace Service

variable {σ : Type}

/-- Check a request without data. -/
def check (s : Service σ) (request : Request) : Except QueryError Schema := do
  typecheck (.of request.budget request.notion s.parameters) (← request.schema) request.steps

def validate (s : Service σ) (request : Request) : Verdict := .ofCheck (s.check request)

/-- The schema and the compiled query of a request. -/
def compile (s : Service σ) (request : Request) :
    Attempt QueryError (Schema × Course Assembly) := do
  let schema ← Attempt.ofExcept request.schema
  return (schema,
    ← checkAndCompile s.library s.parameters request.budget request.notion schema request.steps)

/-- The compiled query of a request and the frame it is about (`QueryService.compile`). -/
def prepare (s : Service σ) (request : Request) (cache : Cache σ) :
    Attempt QueryError (Course Assembly × Frame) × Cache σ :=
  match s.compile request with
  | .error fault => (.error fault, cache)
  | .ok (schema, course) =>
    let (payload, cache) := cache.get s.provider request.dataset
    (do return (course, ← readPayload (← payload.mapError fun e => .execution (.frame e)) schema),
      cache)

/-- Compile the query of a request and run it on its dataset. -/
def evaluate (s : Service σ) (request : Request) (cache : Cache σ) :
    Attempt QueryError Evaluation × Cache σ :=
  let (prepared, cache) := s.prepare request cache
  let evaluation : Attempt QueryError Evaluation := do
    let (course, frame) ← prepared
    course.evaluate s.attempts s.generator frame
  (Attempt.recover (crashError "evaluation") evaluation, cache)

/-- Compile the query of a request and bound its noise; its dataset must be there. -/
def accuracy (s : Service σ) (request : AccuracyRequest) (cache : Cache σ) :
    Attempt QueryError Float × Cache σ :=
  let (prepared, cache) := s.prepare request.query cache
  let bound : Attempt QueryError Float := do
    let (course, _) ← prepared
    course.accuracy s.library request.confidence
  (Attempt.recover (crashError "accuracy") bound, cache)

end Service

end PrivateQuery
