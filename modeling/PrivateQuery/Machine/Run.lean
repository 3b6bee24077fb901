import PrivateQuery.Machine.Transition

/-!
# Runs: `Grammar` and `Typechecker`

A run takes a query through its operations while a pass observes. An operation changes where the
query stands only after the pass has observed all of its events, so a refusal or an objection
leaves the query where it was.
-/
namespace PrivateQuery

/-- A query under way, with the state of the pass that observes it (`Grammar`). -/
structure Course (σ : Type) where
  standing : Standing
  state : σ

namespace Course

variable {σ ε : Type}

def start (schema : Schema) (state : σ) : Course σ := ⟨.start schema, state⟩

/-- Take an operation. -/
def operate (pass : Pass σ ε) (terms : Terms) (c : Course σ) (operation : Operation) :
    Except ε Unit × Course σ :=
  match transition terms c.standing operation with
  | .error e => (.error (pass.ofError e), c)
  | .ok move =>
    match pass.observeAll move.events c.state with
    | (.error e, state) => (.error e, { c with state })
    | (.ok (), state) => (.ok (), ⟨move.next, state⟩)

/-- Take operations in order, up to the first that fails. -/
def operateAll (pass : Pass σ ε) (terms : Terms) : (operations : List Operation) → Course σ →
    Except ε Unit × Course σ
  | [], c => (.ok (), c)
  | operation :: operations, c =>
    match c.operate pass terms operation with
    | (.ok (), c) => operateAll pass terms operations c
    | (.error e, c) => (.error e, c)

/-- Take a step. -/
def step (pass : Pass σ ε) (terms : Terms) (c : Course σ) (step : Step) :
    Except ε Unit × Course σ :=
  operateAll pass terms step.operations c

/-- Take steps in order; the first that fails ends the run. -/
def run (pass : Pass σ ε) (terms : Terms) : (steps : List Step) → Course σ → Except ε (Course σ)
  | [], c => .ok c
  | step :: steps, c =>
    match c.step pass terms step with
    | (.ok (), c) => run pass terms steps c
    | (.error e, _) => .error e

end Course

/-- A query is complete once its noise has been added (`Grammar.finish`). -/
def Standing.finish (s : Standing) : Except QueryError Unit :=
  match s.stage with
  | .noiseAdded => .ok ()
  | stage => .error (.order (.unfinished stage))

/-- Check a whole query on the schema alone; the schema that it ends with (`Typechecker.check`). -/
def typecheck (terms : Terms) (schema : Schema) (steps : List Step) : Except QueryError Schema := do
  let c ← Course.run Pass.silent terms steps (.start schema ())
  c.standing.finish
  return c.standing.schema

end PrivateQuery
