import PrivateQuery.Predicate.Phrase
import PrivateQuery.Predicate.Reader

/-!
# Parts of constructs

A construct is described in terms of the parts that it may hold. Readers of those parts are given,
so each construct is described on its own; the grammar ties them together.
-/
namespace PrivateQuery

/-- What the grammar has to remember of a table in a query. -/
structure Relation where
  /-- Whether it is a join in parentheses. -/
  joined : Bool
  /-- Whether it has got another name. -/
  renamed : Bool
deriving DecidableEq, Repr

/-- Readers of the parts that a construct may hold. -/
structure Parts where
  /-- A whole phrase, as it stands in brackets. -/
  phrase? : List Token → Option (Phrase × List Token)
  /-- A phrase whose operators all bind more strongly than a given power. -/
  operand? : Nat → List Token → Option (Phrase × List Token)
  /-- A phrase in which the words that join predicates are no operators. -/
  amount : Reader
  /-- A query. -/
  query : Reader
  /-- A table with the tables joined to it. -/
  tables? : List Token → Option (Relation × List Token)

namespace Parts

/-- Parts that are never found. -/
def absent : Parts :=
  ⟨fun _ => none, fun _ _ => none, Reader.refuse, Reader.refuse, fun _ => none⟩

def phrase (p : Parts) : Reader := fun ts => (p.phrase? ts).map Prod.snd

def operand (p : Parts) (least : Nat) : Reader := fun ts => (p.operand? least ts).map Prod.snd

/-- Phrases with commas between them. -/
def phrases (p : Parts) : Reader := Reader.separated p.phrase

end Parts

end PrivateQuery
