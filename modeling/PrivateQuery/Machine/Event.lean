import PrivateQuery.Query.Error

/-!
# Events

What happens when a query is accepted, in the order in which it happens. A pass over a query
observes the events and may object to one, with an error of its own kind.
-/
namespace PrivateQuery

inductive Event where
  | select (columns : List String)
  | filter (predicate : Predicate)
  /-- A column gets a new name at a stage. -/
  | rename (old new : String) (stage : Stage)
  | bin (bin : Bin) (type : ColumnType)
  | count (column : String) (type : ColumnType) (bin? : Option Bin) (mechanism : Mechanism)
  | sum (column : String) (type : ColumnType) (mechanism : Mechanism)
  | noise (budget : Budget) (notion : Notion) (mechanism : Mechanism)

namespace Event

def name : Event → String
  | select _ => "select"
  | filter _ => "filter"
  | rename .. => "rename"
  | bin .. => "bin"
  | count .. => "count"
  | sum .. => "sum"
  | noise .. => "noise"

/-- What an event is about, for a record of the events. -/
def details : Event → List String
  | select columns => [",".intercalate columns]
  | filter predicate => [predicate.toString]
  | rename old new stage => [old, new, "while", stage.toString]
  | bin b type => [b.toString, type.toString]
  | count column type bin? mechanism =>
    [column, type.toString, (bin?.map Bin.toString).getD "-", mechanism.toString]
  | sum column type mechanism => [column, type.toString, mechanism.toString]
  | noise budget notion mechanism => [budget.toString, notion.toString, mechanism.toString]

def toString (e : Event) : String := " ".intercalate (e.name :: e.details)

instance : ToString Event := ⟨Event.toString⟩

end Event

/-- An observer with a state. What it has noted before it objects stays noted. -/
structure Pass (σ ε : Type) where
  observe : Event → σ → Except ε Unit × σ
  /-- How the observer reports an error of the query itself. -/
  ofError : QueryError → ε

namespace Pass

variable {σ ε : Type}

/-- Observe events in order, up to the first objection. -/
def observeAll (pass : Pass σ ε) : (events : List Event) → σ → Except ε Unit × σ
  | [], s => (.ok (), s)
  | event :: events, s =>
    match pass.observe event s with
    | (.ok (), s) => pass.observeAll events s
    | (.error e, s) => (.error e, s)

/-- The pass that notes nothing and objects to nothing. -/
def silent : Pass Unit QueryError := ⟨fun _ s => (.ok (), s), id⟩

theorem silent_observeAll (events : List Event) (s : Unit) :
    silent.observeAll events s = (.ok (), s) := by
  induction events with
  | nil => rfl
  | cons event events ih => exact ih

end Pass

end PrivateQuery
