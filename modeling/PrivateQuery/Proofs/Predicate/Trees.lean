import Mathlib.Data.List.Basic
import PrivateQuery.Predicate.Basic

/-!
# Trees of operators

In a tree an operator may stand over any number of operands. A tree is visited from the leaves up,
and a visitor has the operands of an operator as a list: to display them it takes them by their
positions, to evaluate them it counts them, and either can fail. The trees of predicates are exactly
the ones where every operator has as many operands as it takes (`wellFormed_iff`). There neither
visit fails for the number of operands, and they give the text and the value of the predicate
(`accept_display`, `accept_evaluate`).
-/
namespace PrivateQuery

inductive Tree where
  | column (name : String)
  | literal (value : Value)
  | node (op : Operator) (operands : List Tree)

/-- What is made of a leaf, and of an operator with what is made of its operands. -/
structure Visitor (α : Type) where
  column : String → α
  literal : Value → α
  node : Operator → List α → α

namespace Tree

mutual

/-- Visit a tree from the leaves up. -/
def accept {α : Type} (visitor : Visitor α) : Tree → α
  | column name => visitor.column name
  | literal v => visitor.literal v
  | node op operands => visitor.node op (acceptAll visitor operands)

def acceptAll {α : Type} (visitor : Visitor α) : List Tree → List α
  | [] => []
  | operand :: operands => operand.accept visitor :: acceptAll visitor operands

end

/-- Every operator has as many operands as it takes. -/
inductive WellFormed : Tree → Prop where
  | column (name : String) : WellFormed (.column name)
  | literal (value : Value) : WellFormed (.literal value)
  | node {op : Operator} {operands : List Tree} (count : operands.length = op.arity)
      (each : ∀ operand ∈ operands, WellFormed operand) : WellFormed (.node op operands)

end Tree

namespace Visitor

/-- The columns in order of appearance. -/
def mentions : Visitor (List String) where
  column name := [name]
  literal _ := []
  node _ operands := operands.flatten

/-- The text, which takes operands by their positions; absent if one is out of range. -/
def display : Visitor (Option String) where
  column name := some ("\x60" ++ name ++ "\x60")
  literal v := some (Predicate.literalText v)
  node op operands := do
    let texts ← operands.mapM id
    match op with
    | .unary op =>
      let x ← texts[0]?
      return if op.follows then s!"({x}) {op.symbol}" else s!"{op.symbol} ({x})"
    | .binary op =>
      let l ← texts[0]?
      let r ← texts[1]?
      return s!"({l} {op.symbol} {r})"

/-- The value on a row, which counts the operands; the first of them that fails counts. -/
def evaluate (header : List String) (row : List Value) :
    Visitor (Except PredicateError Value) where
  column name := (Predicate.cell? header row name).elim (.error (.unknownColumn name)) .ok
  literal v := .ok v
  node op operands := do op.apply (← operands.mapM id)

end Visitor

/-! ## Trees of predicates -/

namespace Predicate

/-- The tree of a predicate. -/
def tree : Predicate → Tree
  | column name => .column name
  | literal v => .literal v
  | unary op operand => .node (.unary op) [operand.tree]
  | binary op left right => .node (.binary op) [left.tree, right.tree]

theorem wellFormed_tree (p : Predicate) : p.tree.WellFormed := by
  induction p with
  | column name => exact .column name
  | literal v => exact .literal v
  | unary op operand ih => exact .node rfl (by simpa using ih)
  | binary op left right ihl ihr => exact .node rfl (by simpa using ⟨ihl, ihr⟩)

/-- **`wellFormed_iff`**: predicates are the trees where every operator has as many operands as it
takes. -/
theorem wellFormed_iff {t : Tree} : t.WellFormed ↔ ∃ p : Predicate, p.tree = t := by
  refine ⟨fun formed => ?_, fun ⟨p, same⟩ => same ▸ p.wellFormed_tree⟩
  induction formed with
  | column name => exact ⟨.column name, rfl⟩
  | literal v => exact ⟨.literal v, rfl⟩
  | @node op operands count each ih =>
    cases op with
    | unary op =>
      obtain ⟨t, rfl⟩ := List.length_eq_one_iff.1 count
      obtain ⟨p, same⟩ := ih t (by simp)
      exact ⟨.unary op p, by rw [tree, same]⟩
    | binary op =>
      obtain ⟨l, r, rfl⟩ := List.length_eq_two.1 count
      obtain ⟨p, left⟩ := ih l (by simp)
      obtain ⟨q, right⟩ := ih r (by simp)
      exact ⟨.binary op p q, by rw [tree, left, right]⟩

/-- The columns are the ones a visit comes to. -/
theorem accept_mentions (p : Predicate) : p.tree.accept .mentions = p.mentions := by
  induction p with
  | column name => rfl
  | literal v => rfl
  | unary op operand ih =>
    simp [tree, Tree.accept, Tree.acceptAll, Visitor.mentions, mentions, ← ih]
  | binary op left right ihl ihr =>
    simp [tree, Tree.accept, Tree.acceptAll, Visitor.mentions, mentions, ← ihl, ← ihr]

/-- **`accept_display`**: no position is out of range, and the text is that of the predicate. -/
theorem accept_display (p : Predicate) : p.tree.accept .display = some p.toString := by
  induction p with
  | column name => rfl
  | literal v => rfl
  | unary op operand ih =>
    rw [tree, Tree.accept, Tree.acceptAll, Tree.acceptAll, ih]
    rfl
  | binary op left right ihl ihr =>
    rw [tree, Tree.accept, Tree.acceptAll, Tree.acceptAll, Tree.acceptAll, ihl, ihr]
    rfl

example : (Tree.node (.binary .and) [.column "a"]).accept .display = none := rfl

/-- **`accept_evaluate`**: no number of operands is wrong, and the value is that of the predicate. -/
theorem accept_evaluate (header : List String) (row : List Value) (p : Predicate) :
    p.tree.accept (.evaluate header row) = p.value header row := by
  induction p with
  | column name =>
    simp only [tree, Tree.accept, Visitor.evaluate, value]
    cases cell? header row name <;> rfl
  | literal v => rfl
  | unary op operand ih =>
    rw [tree, Tree.accept, Tree.acceptAll, Tree.acceptAll, ih, value]
    cases operand.value header row <;> rfl
  | binary op left right ihl ihr =>
    rw [tree, Tree.accept, Tree.acceptAll, Tree.acceptAll, Tree.acceptAll, ihl, ihr, value]
    cases left.value header row with
    | error e => rfl
    | ok l => cases right.value header row <;> rfl

end Predicate

end PrivateQuery
