import PrivateQuery.Predicate.Reader

/-!
# Names of types

The types that the grammar knows have parameters of their own; any other name is a custom type with
parameters at will. Brackets after any of them make a list type. Types in angle brackets may be
nested, and then one token `>>` closes two of them.
-/
namespace PrivateQuery

namespace TypeName

/-- What the grammar tells types apart by. -/
inductive Kind where
  | known
  | interval
  | custom
deriving DecidableEq, Repr

end TypeName

/-- What the grammar has to remember of a type. -/
structure TypeName where
  kind : TypeName.Kind
  /-- Whether half of its closing `>>` is left for the type around it. -/
  surplus : Bool
deriving DecidableEq, Repr

namespace TypeName

open Reader

def known : TypeName := ⟨.known, false⟩

/-! ## Parameters -/

def precision : Reader := clause (symbol "(") (wholeNumber >=> symbol ")")

def scale : Reader :=
  clause (symbol "(") (wholeNumber >=> clause (symbol ",") wholeNumber >=> symbol ")")

def characterLength : Reader :=
  let unit := optional (oneOf ["CHARACTERS", "OCTETS"])
  clause (symbol "(") (branch (keyword "MAX") nothing (wholeNumber >=> unit) >=> symbol ")")

def members : Reader := parenthesized (separated singleQuoted)

/-- Read the rest of the parameters of a custom type. -/
def anyParameters : Reader
  | .symbol ")" :: rest => some rest
  | .symbol "," :: rest | .number _ _ :: rest | .word _ _ :: rest | .string _ :: rest =>
    anyParameters rest
  | _ => none

def characterType : Reader :=
  branch (keyword "VARYING") characterLength
    (branch (keywords ["LARGE", "OBJECT"]) precision characterLength)

def timeType : Reader :=
  precision >=> clause (oneOf ["WITH", "WITHOUT"]) (keywords ["TIME", "ZONE"])

/-- The known types without angle brackets, with what may follow their names. -/
def forms : List (List String × Reader) :=
  [(["BOOLEAN", "BOOL", "REAL", "FLOAT4", "FLOAT64", "FLOAT8", "INT64", "UUID", "DATE", "JSON",
      "JSONB", "REGCLASS", "TEXT", "BYTEA"], nothing),
    (["FLOAT", "CLOB", "BINARY", "VARBINARY", "BLOB", "BYTES", "DATETIME", "STRING", "TIMESTAMPTZ",
      "TIMETZ"], precision),
    (["TINYINT", "INT2", "SMALLINT", "MEDIUMINT", "INT", "INT4", "INT8", "INTEGER", "BIGINT"],
      precision >=> optional (keyword "UNSIGNED")),
    (["NUMERIC", "DECIMAL", "DEC", "BIGNUMERIC", "BIGDECIMAL"], scale),
    (["VARCHAR", "NVARCHAR"], characterLength),
    (["CHAR", "CHARACTER"], characterType),
    (["DOUBLE"], optional (keyword "PRECISION")),
    (["TIME", "TIMESTAMP"], timeType),
    (["ENUM", "SET"], members)]

/-- What may follow the name of a known type. -/
def form? (name : String) : Option Reader :=
  (forms.find? fun entry => entry.1.contains name).map Prod.snd

/-! ## Whole types -/

def close (inner : TypeName) (ts : List Token) : Option (TypeName × List Token) :=
  if inner.surplus then some (known, ts)
  else
    match ts with
    | .symbol ">" :: rest => some (known, rest)
    | .symbol ">>" :: rest => some (⟨.known, true⟩, rest)
    | _ => none

/-- Read the brackets of a list type, empty or around a number, any number of times. -/
def readBrackets? (t : TypeName) : List Token → Option (TypeName × List Token)
  | .symbol "[" :: .symbol "]" :: rest => readBrackets? { t with kind := .known } rest
  | .symbol "[" :: size :: .symbol "]" :: rest =>
    if (wholeNumber [size]).isSome then readBrackets? { t with kind := .known } rest else none
  | .symbol "[" :: _ => none
  | ts => some (t, ts)

mutual

/-- Read a type with at most so many types inside. -/
def readWithin? : Nat → List Token → Option (TypeName × List Token)
  | 0, _ => none
  | n + 1, ts => do
    let rest ← word ts
    let keyword := (ts.head?.bind Token.capitalized?).getD ""
    let (t, rest) ←
      match form? keyword with
      | some form => (form rest).map fun rest => (known, rest)
      | none =>
        if keyword == "INTERVAL" then some (⟨.interval, false⟩, rest)
        else if keyword == "ARRAY" then do
          let (inner, rest) ← readWithin? n (← symbol "<" rest)
          close inner rest
        else if keyword == "STRUCT" then
          match symbol "<" rest with
          | some rest => readFieldsWithin? n rest
          | none => some (known, rest)
        else
          ((name >=> clause (symbol "(") anyParameters) ts).map fun rest => (⟨.custom, false⟩, rest)
    readBrackets? t rest

/-- Read the fields of a structure type with or without their names, and its closing bracket. -/
def readFieldsWithin? : Nat → List Token → Option (TypeName × List Token)
  | 0, _ => none
  | n + 1, ts => do
    let (inner, rest) ←
      match ts with
      | .word _ _ :: .word text quote :: rest => readWithin? n (.word text quote :: rest)
      | ts => readWithin? n ts
    match symbol "," rest with
    | some rest => if inner.surplus then none else readFieldsWithin? n rest
    | none => close inner rest

end

/-- Read a type. Each type inside takes a token at least. -/
def read? (ts : List Token) : Option (Kind × List Token) :=
  match readWithin? (2 * ts.length + 1) ts with
  | some (t, rest) => if t.surplus then none else some (t.kind, rest)
  | none => none

/-- Read the name of a structure type with the types of its fields, if it has any. Tells whether it
has. -/
def readStructure? (ts : List Token) : Option (Bool × List Token) :=
  match symbol "<" ts with
  | none => some (false, ts)
  | some rest =>
    match readFieldsWithin? (2 * ts.length + 1) rest with
    | some (t, rest) => if t.surplus then none else some (true, rest)
    | none => none

end TypeName

def Reader.type : Reader := fun ts => (TypeName.read? ts).map Prod.snd

end PrivateQuery
