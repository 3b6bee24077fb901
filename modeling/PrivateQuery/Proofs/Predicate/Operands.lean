import PrivateQuery.Predicate.Grammar
import PrivateQuery.Proofs.Predicate.Scanning

/-!
# Operands of displayed predicates

What a display begins with begins neither a type nor a construct of its own (`Token.Opens`), and what
may follow an operand in it does not go on with the operand (`Token.Follow`). So names, literals and
what stands in parentheses are read as themselves, and a sign or a negation with the operand that
follows it.
-/
namespace PrivateQuery

open Reader

/-! ## No type -/

namespace TypeName

theorem mem_of_anyParameters {t : Token} {ts rest : List Token} (found : anyParameters ts = some rest)
    (mem : t ∈ rest) : t ∈ ts := by
  fun_induction anyParameters ts <;> simp_all

theorem mem_of_name {t : Token} {ts rest : List Token} (found : name ts = some rest) (mem : t ∈ rest) :
    t ∈ ts := by
  fun_induction name ts <;> simp_all

end TypeName

/-- A token that is no name of a type. -/
def Token.Untyped (t : Token) : Prop :=
  TypeName.form? (t.capitalized?.getD "") = none ∧
    t.capitalized?.getD "" ∉ ["INTERVAL", "ARRAY", "STRUCT"]

namespace TypeName

theorem readBrackets?_of_free {t : TypeName} {ts : List Token} (free : .symbol "[" ∉ ts) :
    readBrackets? t ts = some (t, ts) := by
  fun_cases readBrackets? t ts <;> simp_all

/-- Without brackets, what begins with no name of a type is of a custom type if of any. -/
theorem kind_of_readWithin? {n : ℕ} {ts rest : List Token} {t : TypeName}
    (head : ∀ t ∈ ts.head?, t.Untyped) (free : .symbol "[" ∉ ts)
    (found : readWithin? (n + 1) ts = some (t, rest)) : t.kind = .custom := by
  cases ts with
  | nil => simp [readWithin?, word] at found
  | cons first ts =>
    obtain ⟨unknown, special⟩ := head first rfl
    simp only [List.mem_cons, List.not_mem_nil, or_false, not_or, ← beq_eq_false_iff_ne] at special
    obtain ⟨interval, array, struct⟩ := special
    rw [readWithin?] at found
    simp only [Option.bind_eq_bind, Option.bind_eq_some_iff, List.head?_cons, Option.bind_some, unknown,
      interval, array, struct, Bool.false_eq_true, if_false, Option.map_eq_some_iff] at found
    obtain ⟨-, -, -, ⟨rest', named, rfl⟩, brackets⟩ := found
    have free' : .symbol "[" ∉ rest' := by
      intro mem
      obtain ⟨mid, read, parameters⟩ := Option.bind_eq_some_iff.1 named
      refine free (mem_of_name read ?_)
      unfold clause branch at parameters
      split at parameters
      next inner opened =>
        rw [symbol_eq_some_iff.1 opened]
        exact .tail _ (mem_of_anyParameters parameters mem)
      next => cases parameters; exact mem
    rw [readBrackets?_of_free free'] at brackets
    cases brackets
    rfl

/-- Without brackets, what begins with no name of a type is read as no known type. -/
theorem kind_of_read? {ts rest : List Token} {kind : Kind} (head : ∀ t ∈ ts.head?, t.Untyped)
    (free : .symbol "[" ∉ ts) (found : read? ts = some (kind, rest)) : kind = .custom := by
  unfold read? at found
  split at found
  next t rest' within =>
    split at found
    · cases found
    · cases found
      exact kind_of_readWithin? head free within
  next => cases found

end TypeName

/-! ## What an operand begins with and what follows it -/

/-- A token that displays begin with. None of them begins a construct of its own. -/
def Token.Opens (t : Token) : Prop :=
  t.capitalized? ∈ [none, some "NOT", some "TRUE", some "FALSE", some "NULL", some "INF"]

namespace Token.Opens

variable {t : Token}

theorem untyped (h : t.Opens) : t.Untyped := by
  simp only [Opens, List.mem_cons, List.not_mem_nil, or_false] at h
  rcases h with h | h | h | h | h | h <;> rw [Untyped, h] <;> decide

theorem startsWith {names : List String} (h : t.Opens) (ts : List Token)
    (others : ∀ name ∈ ["NOT", "TRUE", "FALSE", "NULL", "INF"], name ∉ names) :
    Reader.startsWith names (t :: ts) = false := by
  simp only [Opens, List.mem_cons, List.not_mem_nil, or_false] at h
  rw [Reader.startsWith, List.any_eq_false]
  intro name mem
  rw [isKeyword, beq_iff_eq]
  intro same
  rw [same] at h
  simp only [reduceCtorEq, Option.some.injEq, false_or] at h
  exact others name (by simpa using h) mem

end Token.Opens

namespace Predicate

theorem opens_token (v : Value) : v.token.Opens := by
  cases v with
  | boolean b => cases b <;> exact List.elem_iff.1 rfl
  | real x =>
    rw [Value.token]
    split <;> exact List.elem_iff.1 rfl
  | _ => exact List.elem_iff.1 rfl

theorem opens_tokens (e : Predicate) : ∃ t ts, e.tokens = t :: ts ∧ t.Opens := by
  cases e with
  | column name => exact ⟨_, _, rfl, List.elem_iff.1 rfl⟩
  | literal v => exact ⟨_, _, rfl, opens_token v⟩
  | unary op operand => cases op <;> exact ⟨_, _, rfl, List.elem_iff.1 rfl⟩
  | binary op left right => exact ⟨_, _, rfl, List.elem_iff.1 rfl⟩

theorem free_tokens (e : Predicate) : .symbol "[" ∉ e.tokens := by
  induction e with
  | column name => simp [tokens]
  | literal v =>
    have own : Token.symbol "[" ≠ v.token := by
      cases v with
      | real x =>
        rw [Value.token]
        split <;> simp
      | _ => simp [Value.token]
    simp [tokens, own]
  | unary op operand ih =>
    have own : Token.symbol "[" ∉ op.tokens := by cases op <;> decide
    unfold tokens grouped
    split <;> simp [ih, own]
  | binary op left right ihl ihr =>
    have own : Token.symbol "[" ≠ op.token := by cases op <;> decide
    simp [tokens, grouped, ihl, ihr, own]

end Predicate

/-- What may follow an operand in a display. -/
structure Token.Follow (rest : List Token) : Prop where
  head : ∀ t ∈ rest.head?, t = .symbol ")" ∨ t = .word "is" none ∨ ∃ op : BinaryOperator, t = op.token
  free : .symbol "[" ∉ rest

namespace Token.Follow

variable {rest : List Token}

theorem nil : Follow [] := ⟨by rintro t ⟨⟩, List.not_mem_nil⟩

theorem closing (free : .symbol "[" ∉ rest) : Follow (.symbol ")" :: rest) :=
  ⟨by rintro t ⟨⟩; exact .inl rfl, by simp [free]⟩

theorem is (free : .symbol "[" ∉ rest) : Follow (.word "is" none :: rest) :=
  ⟨by rintro t ⟨⟩; exact .inr (.inl rfl), by simp [free]⟩

theorem binary (op : BinaryOperator) (free : .symbol "[" ∉ rest) : Follow (op.token :: rest) := by
  have own : Token.symbol "[" ≠ op.token := by cases op <;> decide
  exact ⟨by rintro t ⟨⟩; exact .inr (.inr ⟨op, rfl⟩), by simp [free, own]⟩

theorem forms (h : Follow rest) : rest = [] ∨ (∃ more, rest = .symbol ")" :: more) ∨
    (∃ more, rest = .word "is" none :: more) ∨
      ∃ (op : BinaryOperator) (more : _), rest = op.token :: more := by
  cases rest with
  | nil => exact .inl rfl
  | cons t more =>
    rcases h.head t rfl with rfl | rfl | ⟨op, rfl⟩
    · exact .inr (.inl ⟨more, rfl⟩)
    · exact .inr (.inr (.inl ⟨more, rfl⟩))
    · exact .inr (.inr (.inr ⟨op, more, rfl⟩))

theorem no_collation (h : Follow rest) : keyword "COLLATE" rest = none := by
  rcases h.forms with rfl | ⟨more, rfl⟩ | ⟨more, rfl⟩ | ⟨op, more, rfl⟩
  on_goal 4 => cases op
  all_goals rfl

theorem no_point (h : Follow rest) : Reader.symbol "." rest = none := by
  rcases h.forms with rfl | ⟨more, rfl⟩ | ⟨more, rfl⟩ | ⟨op, more, rfl⟩
  on_goal 4 => cases op
  all_goals rfl

end Token.Follow

/-! ## Operands -/

namespace Phrase

open Token (Follow)

variable {p : Parts} {ts rest : List Token} {r : Option Phrase}

/-- An operand is what it begins with, if no type and no collation is read around it. -/
theorem readPrimary?_of_bare (head : ∀ t ∈ ts.head?, t.Opens) (free : .symbol "[" ∉ ts)
    (bare : readBare? p ts = r.map (·, rest)) (follow : Follow rest) :
    readPrimary? p ts = r.map (·, rest) := by
  have typed : typed p ts = none := by
    unfold Phrase.typed
    cases read : TypeName.read? ts with
    | none => rfl
    | some found =>
      obtain ⟨kind, rest⟩ := found
      rw [TypeName.kind_of_read? (fun t mem => (head t mem).untyped) free read]
  unfold readPrimary?
  rw [typed, bare]
  cases r with
  | none => rfl
  | some x =>
    dsimp only [Option.map_some]
    rw [follow.no_collation]

theorem readNamed?_of_follow (text : String) (quote : Option Char) (follow : Follow rest) :
    readNamed? p text quote rest = some (ofWord text quote, rest) := by
  rcases follow.forms with rfl | ⟨more, rfl⟩ | ⟨more, rfl⟩ | ⟨op, more, rfl⟩
  on_goal 4 => cases op
  all_goals simp [readNamed?, introduced, BinaryOperator.token, BinaryOperator.symbol]

end Phrase

/-- The phrase of a literal. -/
def Value.phrase : Value → Phrase
  | integer i => .number (ToString.toString i.toInt)
  | real x => if x.isFinite then .number (Decimal.plain x) else .name "inf"
  | v => .literal v

namespace Phrase

open Token (Follow)

variable {p : Parts} {ts rest : List Token} {r : Option Phrase}

theorem readPrimary?_column (name : String) (follow : Follow rest) :
    readPrimary? p (.word name (some '\x60') :: rest) = some (.name name, rest) := by
  refine readPrimary?_of_bare (r := some (.name name)) (by rintro t ⟨⟩; exact List.elem_iff.1 rfl)
    (by simp [follow.free]) ?_ follow
  change readNamed? p name (some '\x60') rest = _
  rw [readNamed?_of_follow name _ follow]
  rfl

theorem readPrimary?_literal (v : Value) (follow : Follow rest) :
    readPrimary? p (v.token :: rest) = some (v.phrase, rest) := by
  have free : .symbol "[" ≠ v.token := by
    simpa [Predicate.tokens] using (Predicate.literal v).free_tokens
  refine readPrimary?_of_bare (r := some v.phrase) ?_ (by simp [free, follow.free]) ?_ follow
  · rintro t ⟨⟩
    exact Predicate.opens_token v
  · cases v with
    | null => rfl
    | boolean b => cases b <;> rfl
    | integer i => rfl
    | text s => rfl
    | real x =>
      rw [Value.token, Value.phrase]
      split
      · rfl
      · exact readNamed?_of_follow "inf" none follow

/-- Whether tokens begin as displays do. -/
def Opens (ts : List Token) : Prop := ∃ t more, ts = t :: more ∧ t.Opens

theorem readPrimary?_grouped (opens : Opens ts) (free : .symbol "[" ∉ ts) (follow : Follow rest)
    (inner : p.phrase? (ts ++ .symbol ")" :: rest) = r.map (·, .symbol ")" :: rest)) :
    readPrimary? p (Predicate.grouped ts ++ rest) = (r.map .nested).map (·, rest) := by
  have shape : Predicate.grouped ts ++ rest = .symbol "(" :: (ts ++ .symbol ")" :: rest) := by
    simp [Predicate.grouped]
  have free' : Token.symbol "[" ∉ ts ++ .symbol ")" :: rest := by simp [free, follow.free]
  obtain ⟨t, more, rfl, start⟩ := opens
  rw [shape]
  refine readPrimary?_of_bare (by rintro t ⟨⟩; exact List.elem_iff.1 rfl) (by simpa using free') ?_
    follow
  change readGrouped? p _ = _
  rw [List.cons_append] at inner ⊢
  have query : startsWith ["SELECT", "WITH"] (t :: (more ++ .symbol ")" :: rest)) = false :=
    start.startsWith _ (by simp)
  unfold readGrouped? readItems?
  rw [query, readItemsWithin?, inner]
  cases r with
  | none => rfl
  | some x =>
    have comma : Reader.symbol "," (.symbol ")" :: rest) = none := rfl
    have closing : Reader.symbol ")" (.symbol ")" :: rest) = some rest := rfl
    simp [comma, closing, follow.no_point]

theorem readPrimary?_opposite (free : .symbol "[" ∉ ts) (follow : Follow rest)
    (operand : p.operand? signPower ts = r.map (·, rest)) :
    readPrimary? p (.symbol "-" :: ts) = (r.map (.unary .minus)).map (·, rest) := by
  refine readPrimary?_of_bare (by rintro t ⟨⟩; exact List.elem_iff.1 rfl) (by simpa using free) ?_ follow
  change (p.operand? signPower ts).map _ = _
  rw [operand, Option.map_map, Option.map_map]
  rfl

theorem readPrimary?_not (free : .symbol "[" ∉ ts) (plain : keyword "EXISTS" ts = none)
    (follow : Follow rest) (operand : p.operand? notPower ts = r.map (·, rest)) :
    readPrimary? p (.word "not" none :: ts) = (r.map (.unary .not)).map (·, rest) := by
  refine readPrimary?_of_bare (by rintro t ⟨⟩; exact List.elem_iff.1 rfl) (by simpa using free) ?_ follow
  have upper : ((Token.word "not" none).capitalized?).getD "" = "NOT" := rfl
  change readWorded? p "not" none ts = _
  unfold readWorded?
  rw [upper, plain, operand, Option.map_map, Option.map_map]
  rfl

end Phrase

end PrivateQuery
