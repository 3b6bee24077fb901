import PrivateQuery.Pipeline.Basic
import PrivateQuery.Privacy.Library
import PrivateQuery.Query.Request

/-!
# Releases: `evaluate_with_rng`

Running a pipeline on a frame gives a dictionary with one release, under the label of the pipeline.
A histogram keeps the order of its categories.
-/
namespace PrivateQuery

inductive Release where
  | integer (i : Int64)
  | real (x : Float)
  /-- Counts with noise, by category. -/
  | histogram (counts : List (Value × Int64))
deriving DecidableEq

def Release.toJson : Release → Json
  | integer i => .integer i.toInt
  | real x => .ofFloat x
  | histogram entries => .object (entries.map fun (v, i) => (v.toString, .integer i.toInt))

/-- The releases of a run, by label. -/
abbrev Evaluation := Dictionary Release

namespace Pipeline

/-- The release that an aggregate makes. It must fit the categories. -/
def toRelease (p : Pipeline) (aggregate : Aggregate) : Except ExecutionError Release :=
  match aggregate, p.categories? with
  | .counts counts, some categories =>
    if counts.length ≠ categories.length then
      .error (.categoryCount counts.length categories.length)
    else .ok (.histogram (categories.zip counts))
  | .integer i, none => .ok (.integer i)
  | .real x, none => .ok (.real x)
  | aggregate, _ => .error (.aggregate aggregate p.measurement)

/-- What a run on a frame with a generator releases; the words drawn are drawn in any case. -/
def release (p : Pipeline) (attempts : Nat) (frame : Frame) (g : Generator) :
    Attempt QueryError Release × Generator :=
  match p.project frame with
  | .error e => (Attempt.raise (.execution (.frame e)), g)
  | .ok projected =>
    let (outcome, g) := (p.measurement.invoke attempts projected).run g
    let released : Attempt QueryError Release := do
      let aggregate ← Attempt.mapError (fun e => .execution (.mechanism e)) outcome
      Attempt.ofExcept ((p.toRelease aggregate).mapError .execution)
    (released, g)

/-- Run on a frame with a generator (`evaluate_with_rng`). -/
def evaluate (p : Pipeline) (attempts : Nat) (frame : Frame) (g : Generator) :
    Attempt QueryError Evaluation × Generator :=
  let (released, g) := p.release attempts frame g
  (released.map fun release => .ofList [(p.label, release)], g)

theorem evaluate_eq (p : Pipeline) (attempts : Nat) (frame : Frame) (g : Generator) :
    p.evaluate attempts frame g = ((p.release attempts frame g).1.map fun release =>
      .ofList [(p.label, release)], (p.release attempts frame g).2) := rfl

/-- The bound on the noise at a confidence, which must lie between zero and one. -/
def accuracy (p : Pipeline) (library : Library) (confidence : Float) : Attempt QueryError Float :=
  if isConfidence confidence then
    Attempt.mapError (fun e => .execution (.mechanism e))
      (library.accuracy p.scale (1 - confidence) p.discrete p.mechanism)
  else Attempt.raise (.form (.confidence confidence))

end Pipeline

end PrivateQuery
