import PrivateQuery.Predicate.Construct.Table

/-!
# Queries

A query selects columns from tables, or lists rows, or combines such queries; common names stand in
front of it and its order and its bounds at the end. Predicates do without queries, so a query is
only read to find its end.
-/
namespace PrivateQuery.Construct

open Reader

/-! ## What is selected -/

def distinction (p : Parts) : Reader :=
  let keys := symbol "(" >=> branch (symbol ")") nothing (p.phrases >=> symbol ")")
  let distinct := keyword "DISTINCT" >=> clause (keyword "ON") keys
  branch (keyword "ALL") (fun ts => if startsWith ["DISTINCT"] ts then none else some ts)
    fun ts => if startsWith ["DISTINCT"] ts then distinct ts else some ts

def topClause (p : Parts) : Reader :=
  clause (keyword "TOP") (branch (symbol "(") (p.phrase >=> symbol ")") wholeNumber >=>
    optional (keyword "PERCENT") >=> optional (keywords ["WITH", "TIES"]))

/-- Read which columns an asterisk leaves out, replaces or renames. -/
def wildcardChanges (p : Parts) : Reader :=
  let several (r : Reader) : Reader := branch (symbol "(") (separated r >=> symbol ")") r
  let excluding := clause (keyword "EXCLUDE") (several identifier)
  let replacement := p.phrase >=> optional (keyword "AS") >=> identifier
  let newName := identifier >=> optional (keyword "AS") >=> identifier
  branch (keyword "ILIKE") singleQuoted excluding >=>
    clause (keyword "EXCEPT") (several identifier) >=>
    clause (keyword "REPLACE") (parenthesized (separated replacement)) >=>
    clause (keyword "RENAME") (several newName)

/-- Read a selected column. The word that begins the tables is none, so that no comma may stand
before it. -/
def selected (p : Parts) : Reader :=
  branch wildcard (wildcardChanges p) fun ts =>
    match p.phrase? ts with
    | some (.name _, rest) =>
      if startsWith ["FROM"] ts then none else otherName reservedForColumns rest
    | some (_, rest) => otherName reservedForColumns rest
    | none => none

def intoClause : Reader :=
  clause (keyword "INTO") (optional (oneOf ["TEMP", "TEMPORARY"]) >=>
    optional (keyword "UNLOGGED") >=> optional (keyword "TABLE") >=> name)

/-! ## From where and on what condition -/

def fromClause (p : Parts) : Reader :=
  clause (keyword "FROM") (separated fun ts => (tables? p ts).map Prod.snd)

def lateralViews (p : Parts) : Reader :=
  let view := keywords ["LATERAL", "VIEW"] >=> optional (keyword "OUTER") >=> p.phrase >=> name >=>
    separated (otherName ["WHERE", "GROUP", "CLUSTER", "HAVING", "LATERAL"])
  repeated (fun ts => (keywords ["LATERAL", "VIEW"] ts).isSome) view

def groupKey (p : Parts) : Reader :=
  let tuple := symbol "(" >=> branch (symbol ")") nothing (p.phrases >=> symbol ")")
  let keys : Reader := fun ts => if (symbol "(" ts).isSome then tuple ts else p.phrase ts
  branch (keywords ["GROUPING", "SETS"]) (parenthesized (separated tuple))
    (branch (oneOf ["CUBE", "ROLLUP"]) (parenthesized (separated keys))
      (branch (symbol "(" >=> symbol ")") nothing p.phrase))

def groupClause (p : Parts) : Reader :=
  clause (keywords ["GROUP", "BY"]) (branch (keyword "ALL") nothing (separated (groupKey p)))

def windowClause (p : Parts) : Reader :=
  clause (keyword "WINDOW") (separated (identifier >=> keyword "AS" >=>
    branch (symbol "(") (window p) identifier))

def hierarchy (p : Parts) : Reader := fun ts =>
  let start := keywords ["START", "WITH"] >=> p.phrase
  let connect := keywords ["CONNECT", "BY"] >=> p.phrases
  if startsWith ["START"] ts then (start >=> connect) ts
  else if startsWith ["CONNECT"] ts then (connect >=> start) ts
  else some ts

def selection (p : Parts) : Reader :=
  distinction p >=> topClause p >=> separated (selected p) >=> intoClause >=> fromClause p >=>
    lateralViews p >=> clause (keyword "WHERE") p.phrase >=> groupClause p >=>
    clause (keywords ["CLUSTER", "BY"]) p.phrases >=>
    clause (keywords ["DISTRIBUTE", "BY"]) p.phrases >=>
    clause (keywords ["SORT", "BY"]) p.phrases >=> clause (keyword "HAVING") p.phrase >=>
    windowClause p >=> clause (keyword "QUALIFY") p.phrase >=> hierarchy p

/-! ## Combined queries -/

/-- Read the name of a table that stands as a query. Without a schema it takes two more tokens. -/
def tableName : Reader
  | .word _ _ :: .symbol "." :: rest => word rest
  | .word _ _ :: rest => some (rest.drop 2)
  | _ => none

/-- Read a query that is not combined with another one. -/
def simpleQuery (p : Parts) : Reader :=
  branch (keyword "SELECT") (selection p)
    (branch (symbol "(") (p.query >=> symbol ")")
      (branch (keyword "VALUES") (rows p) (keyword "TABLE" >=> tableName)))

def combination : Reader :=
  let byName := optional (keywords ["BY", "NAME"])
  branch (keyword "UNION")
    (branch (keyword "ALL") byName
      (branch (keywords ["DISTINCT", "BY", "NAME"]) nothing
        (branch (keyword "DISTINCT") nothing byName)))
    (oneOf ["EXCEPT", "INTERSECT"] >=> optional (oneOf ["ALL", "DISTINCT"]))

def combined (p : Parts) : Reader :=
  simpleQuery p >=> repeated (startsWith ["UNION", "EXCEPT", "INTERSECT"])
    (combination >=> simpleQuery p)

/-! ## Order and bounds -/

/-- Read how many rows there are at most and how many are left out, in any order. -/
def bounds (p : Parts) : (rounds : Nat) → (limited shifted : Bool) → Reader
  | 0, _, _ => nothing
  | rounds + 1, limited, shifted => fun ts => do
    let (limited, ts) ←
      match if limited then none else keyword "LIMIT" ts with
      | none => some (limited, ts)
      | some rest =>
        match keyword "ALL" rest with
        | some rest => some (false, rest)
        | none => (p.phrase rest).map fun rest => (true, rest)
    let (shifted, ts) ←
      match if shifted then none else keyword "OFFSET" ts with
      | none => some (shifted, ts)
      | some rest =>
        ((p.phrase >=> optional (oneOf ["ROW", "ROWS"])) rest).map fun rest => (true, rest)
    let (shifted, ts) ←
      match if limited && !shifted then symbol "," ts else none with
      | none => some (shifted, ts)
      | some rest => (p.phrase rest).map fun rest => (true, rest)
    bounds p rounds limited shifted ts

def fetchClause : Reader :=
  clause (keyword "FETCH") (oneOf ["FIRST", "NEXT"] >=>
    branch (oneOf ["ROW", "ROWS"]) nothing
      (literal >=> optional (keyword "PERCENT") >=> oneOf ["ROW", "ROWS"]) >=>
    branch (keyword "ONLY") nothing (keywords ["WITH", "TIES"]))

def locks : Reader :=
  let lock := keyword "FOR" >=> oneOf ["UPDATE", "SHARE"] >=> clause (keyword "OF") name >=>
    branch (keyword "NOWAIT") nothing (optional (keywords ["SKIP", "LOCKED"]))
  repeated (fun ts => startsWith ["FOR"] ts && !startsWith ["XML", "JSON", "BROWSE"] (ts.drop 1)) lock

def resultForm : Reader :=
  let label := parenthesized string
  let labeled : Reader := fun ts => if (symbol "(" ts).isSome then label ts else some ts
  let options (option : Reader) : Reader :=
    repeated (fun ts => (symbol "," ts).isSome) (symbol "," >=> option)
  let treeOption := branch (keyword "ELEMENTS") nothing
    (branch (keyword "BINARY") (keyword "BASE64")
      (branch (keyword "ROOT") label (optional (keyword "TYPE"))))
  let objectOption := branch (keyword "ROOT") label
    (optional (oneOf ["INCLUDE_NULL_VALUES", "WITHOUT_ARRAY_WRAPPER"]))
  clause (keyword "FOR")
    (branch (keyword "XML")
      (branch (oneOf ["AUTO", "EXPLICIT"]) nothing (oneOf ["RAW", "PATH"] >=> labeled) >=>
        options treeOption)
      (branch (keyword "JSON") (oneOf ["AUTO", "PATH"] >=> options objectOption)
        (keyword "BROWSE")))

def commonQuery (p : Parts) : Reader :=
  let body := parenthesized p.query
  identifier >=> branch (keyword "AS") body (columns >=> keyword "AS" >=> body) >=>
    clause (keyword "FROM") identifier

def query (p : Parts) : Reader :=
  clause (keyword "WITH") (optional (keyword "RECURSIVE") >=> separated (commonQuery p)) >=>
    combined p >=> orderClause p >=> bounds p 2 false false >=> clause (keyword "BY") p.phrases >=>
    fetchClause >=> locks >=> resultForm

end PrivateQuery.Construct
