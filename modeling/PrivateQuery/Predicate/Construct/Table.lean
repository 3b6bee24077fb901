import PrivateQuery.Predicate.Construct.Call

/-!
# Tables of a query

A table is a name, a query, a list of rows or what a function gives, and it may get another name.
Tables are joined one after the other; a join in parentheses is a table again.
-/
namespace PrivateQuery.Construct

open Reader

/-! ## Other names -/

/-- The words that may not stand as another name for a column. -/
def reservedForColumns : List String :=
  ["WITH", "EXPLAIN", "ANALYZE", "SELECT", "WHERE", "GROUP", "SORT", "HAVING", "ORDER", "TOP",
    "LATERAL", "VIEW", "LIMIT", "OFFSET", "FETCH", "UNION", "EXCEPT", "INTERSECT", "CLUSTER",
    "DISTRIBUTE", "FROM", "INTO", "END"]

/-- The words that may not stand as another name for a table. -/
def reservedForTables : List String :=
  ["WITH", "EXPLAIN", "ANALYZE", "SELECT", "WHERE", "GROUP", "SORT", "HAVING", "ORDER", "PIVOT",
    "UNPIVOT", "TOP", "LATERAL", "VIEW", "LIMIT", "OFFSET", "FETCH", "UNION", "EXCEPT", "INTERSECT",
    "ON", "JOIN", "INNER", "CROSS", "FULL", "LEFT", "RIGHT", "NATURAL", "USING", "CLUSTER",
    "DISTRIBUTE", "GLOBAL", "ANTI", "SEMI", "OUTER", "SET", "QUALIFY", "WINDOW", "END", "FOR",
    "PARTITION", "START", "CONNECT", "MATCH_RECOGNIZE"]

/-- Read another name if there is one. Only after its keyword may it be a reserved word. -/
def otherName (reserved : List String) : Reader :=
  branch (keyword "AS") identifier fun ts =>
    if startsWith reserved ts then some ts else optional identifier ts

/-- Read another name for a table, with names for its columns. Tells whether there is one. -/
def readOtherName? (ts : List Token) : Option (Bool × List Token) := do
  let rest ← otherName reservedForTables ts
  if rest.length == ts.length then some (false, ts)
  else
    let rest ← if (symbol "(" rest).isSome then columns rest else some rest
    some (true, rest)

/-- A table that may have got another name right here. -/
def renamed (ts : List Token) : Option (Relation × List Token) :=
  (readOtherName? ts).map fun (given, rest) => (⟨false, given⟩, rest)

/-! ## Kinds of tables -/

def rows (p : Parts) : Reader :=
  separated (optional (keyword "ROW") >=> parenthesized p.phrases)

def tableArguments (p : Parts) : Reader :=
  branch (symbol ")") nothing (separated (argument p) >=> symbol ")")

/-- Read a query as a table, after the opening parenthesis. -/
def derived? (p : Parts) : List Token → Option (Relation × List Token) :=
  p.query >=> symbol ")" >=> renamed

/-- Read tables in parentheses, after the opening one. A lone table may get its other name inside
the parentheses or outside, but not on both sides. -/
def grouped? (p : Parts) (ts : List Token) : Option (Relation × List Token) := do
  let (inner, rest) ← p.tables? ts
  let (given, rest) ← (symbol ")" >=> readOtherName?) rest
  if inner.joined then some (⟨true, given⟩, rest)
  else if inner.renamed && given then none
  else some (⟨false, inner.renamed || given⟩, rest)

/-- Read the elements of a list as a table, after the keyword. -/
def unnested? (p : Parts) (ts : List Token) : Option (Relation × List Token) := do
  let (t, rest) ← (parenthesized p.phrases >=> renamed) ts
  let offset := clause (keyword "OFFSET") (otherName reservedForColumns)
  let rest ← clause (keyword "WITH") offset rest
  some (t, rest)

/-- Read the columns that a document is taken apart into, after the keyword. -/
def documentColumns (p : Parts) : Reader :=
  let handling := branch (keyword "DEFAULT") literal (oneOf ["NULL", "ERROR"]) >=>
    keyword "ON" >=> oneOf ["EMPTY", "ERROR"]
  let column := identifier >=> type >=> optional (keyword "EXISTS") >=> keyword "PATH" >=>
    literal >=> repeated (startsWith ["NULL", "ERROR", "DEFAULT"]) handling
  parenthesized (p.phrase >=> symbol "," >=> literal >=> keyword "COLUMNS" >=>
    parenthesized (separated column))

/-- Read a table made of columns or of rows, after the keyword. -/
def turned (p : Parts) (byRows : Bool) : Reader :=
  if byRows then
    parenthesized (identifier >=> keyword "FOR" >=> identifier >=> keyword "IN" >=> columns)
  else
    let label := clause (keyword "AS") identifier
    let aggregate := word >=> symbol "(" >=> call p >=> label
    parenthesized (separated aggregate >=> keyword "FOR" >=> name >=> keyword "IN" >=>
      parenthesized (separated (p.phrase >=> label)))

def readTurned? (p : Parts) : Nat → Relation → List Token → Option (Relation × List Token)
  | 0, t, ts => some (t, ts)
  | n + 1, t, ts =>
    if startsWith ["PIVOT", "UNPIVOT"] ts then do
      let (t, rest) ← (turned p (startsWith ["UNPIVOT"] ts) >=> renamed) (ts.drop 1)
      readTurned? p n t rest
    else some (t, ts)

/-- Read a table by its name, with its partitions, its arguments and hints on how to read it. -/
def named? (p : Parts) (ts : List Token) : Option (Relation × List Token) := do
  let start := name >=> clause (keyword "PARTITION") columns >=>
    clause (symbol "(") (tableArguments p)
  let (t, rest) ← (start >=> renamed) ts
  let rest ← clause (keyword "WITH" >=> symbol "(") (p.phrases >=> symbol ")") rest
  readTurned? p rest.length t rest

/-- Read a table. A parenthesis begins a query where it can. -/
def table? (p : Parts) (ts : List Token) : Option (Relation × List Token) :=
  match ts with
  | [] => none
  | t :: rest =>
    match t with
    | .symbol "(" =>
      match derived? p rest with
      | some (t, rest) => readTurned? p rest.length t rest
      | none => grouped? p rest
    | _ =>
      if t.isKeyword "LATERAL" then
        match symbol "(" rest with
        | some rest => derived? p rest
        | none => (name >=> symbol "(" >=> tableArguments p >=> renamed) rest
      else if t.isKeyword "TABLE" then (parenthesized p.phrase >=> renamed) rest
      else if t.isKeyword "VALUES" then (rows p >=> renamed) rest
      else if t.isKeyword "UNNEST" then unnested? p rest
      else if t.isKeyword "JSON_TABLE" then (documentColumns p >=> renamed) rest
      else named? p ts

/-! ## Joins -/

def joinWords : List String :=
  ["CROSS", "OUTER", "NATURAL", "INNER", "JOIN", "LEFT", "RIGHT", "FULL"]

def joinKind : Reader :=
  branch (keyword "INNER") (keyword "JOIN")
    (branch (oneOf ["LEFT", "RIGHT"]) (optional (oneOf ["OUTER", "SEMI", "ANTI"]) >=> keyword "JOIN")
      (branch (keyword "FULL") (optional (keyword "OUTER") >=> keyword "JOIN") (keyword "JOIN")))

/-- Read a table that is joined to those before it. -/
def join (p : Parts) : Reader :=
  let table : Reader := fun ts => (table? p ts).map Prod.snd
  let condition := branch (keyword "ON") p.phrase (clause (keyword "USING") columns)
  branch (keyword "CROSS") (oneOf ["JOIN", "APPLY"] >=> table)
    (branch (keyword "OUTER") (keyword "APPLY" >=> table)
      (branch (keyword "NATURAL") (joinKind >=> table) (joinKind >=> table >=> condition)))

/-- Read a table and the tables joined to it. -/
def tables? (p : Parts) (ts : List Token) : Option (Relation × List Token) := do
  let (t, rest) ← table? p ts
  let after ← repeated (startsWith joinWords) (join p) rest
  some ({ t with joined := t.joined || startsWith joinWords rest }, after)

end PrivateQuery.Construct
