import PrivateQuery.Predicate.Binding
import PrivateQuery.Predicate.Construct.Query
import PrivateQuery.Predicate.Construct.Special
import PrivateQuery.Predicate.Lexer

/-!
# From tokens to phrases

`Phrase.read?` takes a phrase from the front of a list of tokens and leaves the rest;
`Predicate.parse` reads a whole text. Constructs that predicates do without are read only to find
their end.
-/
namespace PrivateQuery.Phrase

open Reader

/-- A construct that predicates do without. -/
def readForeign? (r : Reader) (ts : List Token) : Option (Phrase × List Token) :=
  (r ts).map fun rest => (.foreign, rest)

/-! ## Operands -/

def bareFunctions : List String := ["CURRENT_CATALOG", "CURRENT_USER", "SESSION_USER", "USER"]

/-- The functions of time, with optional arguments. -/
def timeFunctions : List String :=
  ["CURRENT_TIMESTAMP", "CURRENT_TIME", "CURRENT_DATE", "LOCALTIME", "LOCALTIMESTAMP"]

/-- What a word means where an operand is due and nothing follows that changes it. -/
def ofWord (text : String) (quote : Option Char) : Phrase :=
  if quote == some '"' then .literal (.text text) else .name text

/-- Read a string after the word that introduces it. -/
def introduced : Reader
  | .string _ :: rest | .marked .hexadecimal _ _ :: rest => some rest
  | _ => none

/-- Read phrases between commas, at most so many. -/
def readItemsWithin? (p : Parts) : Nat → List Token → Option (List Phrase × List Token)
  | 0, _ => none
  | n + 1, ts =>
    match p.phrase? ts with
    | none => none
    | some (x, rest) =>
      match symbol "," rest with
      | some rest => (readItemsWithin? p n rest).map fun (xs, rest) => (x :: xs, rest)
      | none => some ([x], rest)

def readItems? (p : Parts) (ts : List Token) : Option (List Phrase × List Token) :=
  readItemsWithin? p (ts.length + 1) ts

def readNamed? (p : Parts) (text : String) (quote : Option Char) (rest : List Token) :
    Option (Phrase × List Token) :=
  match rest with
  | .symbol "(" :: rest => readForeign? (Construct.call p) rest
  | .symbol "." :: rest => readForeign? (Reader.name >=> clause (symbol "(") (Construct.call p)) rest
  | _ =>
    if text.startsWith "_" && (introduced rest).isSome then readForeign? introduced rest
    else some (ofWord text quote, rest)

def readWorded? (p : Parts) (text : String) (quote : Option Char) (rest : List Token) :
    Option (Phrase × List Token) :=
  let upper := ((Token.word text quote).capitalized?).getD ""
  if upper == "TRUE" then some (.literal (.boolean true), rest)
  else if upper == "FALSE" then some (.literal (.boolean false), rest)
  else if upper == "NULL" then some (.literal .null, rest)
  else if upper == "NOT" then
    match keyword "EXISTS" rest with
    | some rest => readForeign? (parenthesized p.query) rest
    | none => (p.operand? notPower rest).map fun (x, rest) => (.unary .not x, rest)
  else if bareFunctions.contains upper then some (.unsupported text, rest)
  else if timeFunctions.contains upper then
    if (symbol "(" rest).isSome then readForeign? (Construct.timeFunction p) rest
    else some (.unsupported text, rest)
  else
    match Construct.afterKeyword? p rangePower upper rest with
    | some construct => readForeign? construct rest
    | none => readNamed? p text quote rest

/-- Read what stands in parentheses, after the opening one: a query, a phrase or several, and a
field of it if a point follows. -/
def readGrouped? (p : Parts) (ts : List Token) : Option (Phrase × List Token) := do
  let (x, rest) ←
    if startsWith ["SELECT", "WITH"] ts then readForeign? p.query ts
    else
      (readItems? p ts).map fun (xs, rest) =>
        match xs with
        | [x] => (.nested x, rest)
        | _ => (.foreign, rest)
  let rest ← symbol ")" rest
  match symbol "." rest with
  | some rest => readForeign? word rest
  | none => some (x, rest)

/-- Read an operand that begins with a symbol. -/
def readMarked? (p : Parts) (s : String) (rest : List Token) : Option (Phrase × List Token) :=
  match s with
  | "-" => (p.operand? signPower rest).map fun (x, rest) => (.unary .minus x, rest)
  | "+" => (p.operand? signPower rest).map fun (x, rest) => (.unary .plus x, rest)
  | "(" => readGrouped? p rest
  | "[" => readForeign? (Construct.array p) rest
  | "\x7b" => readForeign? (Construct.dictionary p) rest
  | ":" | "@" =>
    match rest with
    | .word text _ :: rest | .number text false :: rest => some (.unsupported (s ++ text), rest)
    | _ => none
  | _ => none

/-- Read a string after the name of its type, or an interval. -/
def typed (p : Parts) : Reader := fun ts =>
  match TypeName.read? ts with
  | some (.interval, rest) => Construct.interval p rest
  | some (.known, rest) => string rest
  | _ => none

/-- Read an operand under no collation. -/
def readBare? (p : Parts) : List Token → Option (Phrase × List Token)
  | [] => none
  | t :: rest =>
    match t with
    | .word text quote => readWorded? p text quote rest
    | .number text _ => some (.number text, rest)
    | .string s => some (.literal (.text s), rest)
    | .marked .. => some (.foreign, rest)
    | .dollars .. | .placeholder _ => some (.unsupported t.spelling, rest)
    | .symbol s => readMarked? p s rest

/-- Read an operand without operators of two operands. -/
def readPrimary? (p : Parts) (ts : List Token) : Option (Phrase × List Token) :=
  match typed p ts with
  | some rest => some (.foreign, rest)
  | none =>
    match readBare? p ts with
    | some (x, rest) =>
      match keyword "COLLATE" rest with
      | some rest => readForeign? Reader.name rest
      | none => some (x, rest)
    | none => none

/-! ## Operators -/

/-- `x is …` with a single word or two, after `is`. -/
def readState? (x : Phrase) (ts : List Token) : Option (Phrase × List Token) :=
  let states : List (List String × Phrase) :=
    [(["NULL"], .isNull false x), (["NOT", "NULL"], .isNull true x), (["TRUE"], .isTruth true x),
      (["NOT", "TRUE"], .foreign), (["FALSE"], .isTruth false x), (["NOT", "FALSE"], .foreign),
      (["UNKNOWN"], .foreign), (["NOT", "UNKNOWN"], .foreign)]
  states.findSome? fun (words, x) => (keywords words ts).map fun rest => (x, rest)

def subscript (p : Parts) : Reader :=
  let step := branch (symbol "]") nothing (p.phrase >=> symbol "]")
  let upper := branch (symbol "]") nothing
    (p.phrase >=> branch (symbol "]") nothing (symbol ":" >=> step))
  branch (symbol ":") upper (p.phrase >=> branch (symbol "]") nothing (symbol ":" >=> upper))

def fieldKey : Reader
  | .word _ none :: rest | .word _ (some '"') :: rest => some rest
  | _ => none

/-- Read a path into a document, after its colon. -/
def path (p : Parts) : Reader :=
  let step := branch (symbol ".") fieldKey (symbol "[" >=> p.phrase >=> symbol "]")
  fieldKey >=> repeated (fun ts => (symbol "." ts).isSome || (symbol "[" ts).isSome) step

def quantified (p : Parts) (own : Nat) (mark : BinaryMark) : Reader := fun ts =>
  if BinaryMark.compares mark then parenthesized (p.operand own) ts else none

/-- Read a test against a list, a range or a pattern, after its `not`. -/
def readMembership? (p : Parts) (left : Phrase) (negated : Bool) (ts : List Token) :
    Option (Phrase × List Token) :=
  let pattern := p.operand likePower
  if startsWith ["REGEXP", "RLIKE"] ts then
    readForeign? (optional (keyword "REGEXP") >=> optional (keyword "RLIKE") >=> pattern) ts
  else if startsWith ["IN"] ts then
    match keyword "UNNEST" (ts.drop 1) with
    | some rest => readForeign? (parenthesized p.phrase) rest
    | none => do
      let rest ← symbol "(" (ts.drop 1)
      let (x, rest) ←
        if startsWith ["SELECT", "WITH"] rest then readForeign? p.query rest
        else (readItems? p rest).map fun (items, rest) => (.among negated left items, rest)
      (symbol ")" rest).map fun rest => (x, rest)
  else if startsWith ["BETWEEN"] ts then do
    let (low, rest) ← p.operand? rangePower (ts.drop 1)
    let rest ← keyword "AND" rest
    let (high, rest) ← p.operand? rangePower rest
    some (.between negated left low high, rest)
  else
    readForeign? (branch (oneOf ["LIKE", "ILIKE"]) nothing (keywords ["SIMILAR", "TO"]) >=>
      pattern >=> clause (keyword "ESCAPE") string) ts

/-- Read one operator of power `own` with what follows its first operand. -/
def readOperator? (p : Parts) (own : Nat) (left : Phrase) (ts : List Token) :
    Option (Phrase × List Token) :=
  match readMark? ts with
  | some (mark, rest) =>
    if startsWith ["ANY", "ALL"] rest then readForeign? (quantified p own mark) (rest.drop 1)
    else (p.operand? own rest).map fun (right, rest) => (.binary mark left right, rest)
  | none =>
    match ts with
    | [] => none
    | .symbol s :: rest =>
      match s with
      | "::" => readForeign? type rest
      | "!" => some (.unary (.other "!") left, rest)
      | "[" => readForeign? (subscript p) rest
      | ":" => readForeign? (path p) rest
      | _ => none
    | t :: rest =>
      if t.isKeyword "IS" then
        match readState? left rest with
        | some found => some found
        | none =>
          readForeign?
            (optional (keyword "NOT") >=> keywords ["DISTINCT", "FROM"] >=> p.phrase) rest
      else if t.isKeyword "AT" then readForeign? (keywords ["TIME", "ZONE"] >=> singleQuoted) rest
      else if t.isKeyword "NOT" then readMembership? p left true rest
      else readMembership? p left false ts

/-- Read at most so many operators that bind more strongly than `least`, after their first operand;
`power` tells how strongly they bind. -/
def readOperatorsWithin? (p : Parts) (power : List Token → Nat) (least : Nat) :
    Nat → Phrase → List Token → Option (Phrase × List Token)
  | 0, left, ts => some (left, ts)
  | n + 1, left, ts =>
    if power ts ≤ least then some (left, ts)
    else
      match readOperator? p (power ts) left ts with
      | some (x, rest) => readOperatorsWithin? p power least n x rest
      | none => none

/-- Read a phrase whose operators all bind more strongly than `least`. Each of them takes a token at
least. -/
def readOperand? (p : Parts) (power : List Token → Nat) (least : Nat) (ts : List Token) :
    Option (Phrase × List Token) :=
  match readPrimary? p ts with
  | some (x, rest) => readOperatorsWithin? p power least rest.length x rest
  | none => none

/-! ## Phrases in phrases -/

/-- The readers of parts, where at most `steps` parts may be nested at all and at most `levels` of
them in brackets. -/
def parts : (steps levels : Nat) → Parts
  | 0, _ => .absent
  | steps + 1, levels =>
    { phrase? := fun ts =>
        match levels with
        | 0 => none
        | levels + 1 => readOperand? (parts steps levels) power 0 ts
      operand? := fun least ts => readOperand? (parts steps levels) power least ts
      amount := fun ts => (readOperand? (parts steps levels) amountPower 0 ts).map Prod.snd
      query := fun ts =>
        match levels with
        | 0 => none
        | levels + 1 => Construct.query (parts steps levels) ts
      tables? := fun ts => Construct.tables? (parts steps levels) ts }

/-- How many phrases may be nested in brackets, the outermost included. -/
def maxLevels : Nat := 50

/-- The phrase that a list of tokens starts with, and the rest (`parse_expr`). Every part begins
after a token of what it is a part of, so there are no more steps than tokens. -/
def read? (ts : List Token) : Option (Phrase × List Token) :=
  (parts (ts.length + 1) maxLevels).phrase? ts

end PrivateQuery.Phrase

namespace PrivateQuery.Predicate

def parse (text : String) : Except PredicateError Predicate :=
  match (Token.scan? text).bind Phrase.read? with
  | none => .error .malformed
  | some (phrase, []) => phrase.toPredicate
  | some (_, token :: _) => .error (.leftover text token.spelling)

end PrivateQuery.Predicate
