import PrivateQuery.Noise.Perturbation

/-!
# Pipelines: `CompiledPipeline`

A pipeline is what a query is compiled to: operations on the frame that are still to be carried out,
one measurement of what they leave, and the name of its result. Once built only that name changes.
-/
namespace PrivateQuery

/-- An operation on a frame, to be carried out later (`FrameOp`). -/
inductive FrameOperation where
  | select (columns : List String)
  | filter (predicate : Predicate)
  | rename (old new : String)
deriving DecidableEq

namespace FrameOperation

def apply (frame : Frame) : FrameOperation → Except FrameError Frame
  | select columns => frame.select columns
  | filter predicate => frame.filter predicate
  | rename old new => frame.rename old new

def toString : FrameOperation → String
  | select columns => "select " ++ ", ".intercalate columns
  | filter predicate => "filter " ++ predicate.toString
  | rename old new => "rename " ++ old ++ " to " ++ new

instance : ToString FrameOperation := ⟨FrameOperation.toString⟩

end FrameOperation

structure Pipeline where
  projection : List FrameOperation
  measurement : Measurement
  label : String
  /-- The categories of a histogram. -/
  categories? : Option (List Value)
  seed? : Option Nat
deriving DecidableEq

namespace Pipeline

def scale (p : Pipeline) : Float := p.measurement.noise.scale

def mechanism (p : Pipeline) : Mechanism := p.measurement.noise.mechanism

def discrete (p : Pipeline) : Bool := p.measurement.noise.discrete

/-- Rename the result, if it has the old name. -/
def relabel (p : Pipeline) (old new : String) : Pipeline :=
  if p.label = old then { p with label := new } else p

/-- Carry out the operations on a frame. -/
def project (p : Pipeline) (frame : Frame) : Except FrameError Frame :=
  p.projection.foldlM FrameOperation.apply frame

def toString (p : Pipeline) : String :=
  String.join (p.projection.map fun operation => operation.toString ++ "\n")
    ++ p.measurement.toString ++ " as " ++ p.label

instance : ToString Pipeline := ⟨Pipeline.toString⟩

end Pipeline

end PrivateQuery
