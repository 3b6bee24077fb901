import PrivateQuery.Predicate.Keyword

/-!
# Readers

A reader passes over a construct at the front of a list of tokens and leaves the rest; it has no
answer where the tokens do not hold the construct. Readers are put one after the other by `>=>`.
What begins a construct decides for it: `branch start next otherwise` does not go back to `otherwise`
once `start` has been read, even if `next` fails.
-/
namespace PrivateQuery

/-- What passes over a construct and leaves the rest. -/
abbrev Reader := List Token → Option (List Token)

namespace Reader

/-! ## Single tokens -/

def nothing : Reader := some

def refuse : Reader := fun _ => none

def keyword (name : String) : Reader
  | t :: rest => if t.isKeyword name then some rest else none
  | [] => none

def keywords : List String → Reader
  | [] => nothing
  | name :: names => keyword name >=> keywords names

def symbol (spelling : String) : Reader
  | t :: rest => if t == .symbol spelling then some rest else none
  | [] => none

theorem keyword_eq_some_iff {name : String} {ts rest : List Token} :
    keyword name ts = some rest ↔ ∃ t, t.isKeyword name = true ∧ ts = t :: rest := by
  cases ts with
  | nil => simp [keyword]
  | cons t ts =>
    simp only [keyword]
    split
    next h =>
      constructor
      · rintro ⟨⟩
        exact ⟨t, h, rfl⟩
      · rintro ⟨_, _, ⟨⟩⟩
        rfl
    next h =>
      simp only [reduceCtorEq, false_iff]
      rintro ⟨_, ht, ⟨⟩⟩
      exact h ht

theorem symbol_eq_some_iff {spelling : String} {ts rest : List Token} :
    symbol spelling ts = some rest ↔ ts = .symbol spelling :: rest := by
  cases ts with
  | nil => simp [symbol]
  | cons t ts => by_cases h : t = .symbol spelling <;> simp [symbol, h]

/-- Whether the tokens start with one of several keywords. -/
def startsWith (names : List String) : List Token → Bool
  | t :: _ => names.any (t.isKeyword ·)
  | [] => false

def oneOf (names : List String) : Reader := fun ts =>
  if startsWith names ts then some (ts.drop 1) else none

/-- Read a word or a string, which can serve as a name. -/
def identifier : Reader
  | .word _ _ :: rest | .string _ :: rest => some rest
  | _ => none

/-- Read a word, whether it is a keyword or not. -/
def word : Reader
  | .word _ _ :: rest => some rest
  | _ => none

def singleQuoted : Reader
  | .string _ :: rest => some rest
  | _ => none

/-- Read a string, for which a word that is no keyword counts too. -/
def string : Reader
  | .string _ :: rest | .marked .escaped _ _ :: rest => some rest
  | t :: rest =>
    match t with
    | .word _ _ => if t.isAnyKeyword then none else some rest
    | _ => none
  | [] => none

/-- Read a number without point and exponent that an unsigned 64-bit word holds. -/
def wholeNumber : Reader
  | .number text _ :: rest => if text.toNat?.any (· < UInt64.size) then some rest else none
  | _ => none

/-- Read a literal. Of the words only the truth values, null and those in double quotes are. -/
def literal : Reader
  | [] => none
  | t :: rest =>
    match t with
    | .word _ quote =>
      if ["TRUE", "FALSE", "NULL"].any (t.isKeyword ·) || quote == some '"' then some rest else none
    | .symbol s =>
      if s == ":" || s == "@" then
        match rest with
        | .word _ _ :: rest | .number _ false :: rest => some rest
        | _ => none
      else none
    | _ => some rest

/-! ## Combinations -/

/-- Read `next` after `start`, and `otherwise` where there is no `start`. -/
def branch (start next otherwise : Reader) : Reader := fun ts =>
  match start ts with
  | some rest => next rest
  | none => otherwise ts

/-- Read `next` after `start`, and nothing where there is no `start`. -/
def clause (start next : Reader) : Reader := branch start next nothing

def optional (r : Reader) : Reader := fun ts => some ((r ts).getD ts)

def parenthesized (r : Reader) : Reader := symbol "(" >=> r >=> symbol ")"

/-- Read at most so many constructs, as long as one begins. -/
def repeatedWithin (begins : List Token → Bool) (r : Reader) : Nat → Reader
  | 0 => nothing
  | n + 1 => fun ts => if begins ts then (r >=> repeatedWithin begins r n) ts else some ts

/-- Read constructs as long as one begins. Each takes a token at least. -/
def repeated (begins : List Token → Bool) (r : Reader) : Reader := fun ts =>
  repeatedWithin begins r ts.length ts

/-- Read at most so many constructs with commas between them. -/
def separatedWithin (r : Reader) : Nat → Reader
  | 0 => refuse
  | n + 1 => r >=> clause (symbol ",") (separatedWithin r n)

/-- Read constructs with commas between them, one at least. -/
def separated (r : Reader) : Reader := fun ts => separatedWithin r (ts.length + 1) ts

/-! ## Names -/

/-- Read a name: identifiers joined by points. -/
def name : Reader
  | .word _ _ :: .symbol "." :: rest | .string _ :: .symbol "." :: rest => name rest
  | .word _ _ :: rest | .string _ :: rest => some rest
  | _ => none

def columns : Reader := parenthesized (separated identifier)

end Reader

end PrivateQuery
