import PrivateQuery.Predicate.Construct.Interval

/-!
# Calls

The arguments of a function with the clauses that may stand among them, and the clauses after them,
the last of which is the window that the function is taken over.
-/
namespace PrivateQuery.Construct

open Reader

/-! ## Orders and windows -/

def orderKey (p : Parts) : Reader :=
  p.phrase >=> optional (oneOf ["ASC", "DESC"]) >=>
    optional (keyword "NULLS" >=> oneOf ["FIRST", "LAST"])

def orderClause (p : Parts) : Reader :=
  clause (keywords ["ORDER", "BY"]) (separated (orderKey p))

/-- Read an end of a frame. A string there is an amount of time. -/
def frameBound (p : Parts) : Reader :=
  let distance : Reader := fun ts =>
    match ts with
    | .string _ :: _ => interval p ts
    | _ => p.phrase ts
  branch (keywords ["CURRENT", "ROW"]) nothing
    (branch (keyword "UNBOUNDED") nothing distance >=> oneOf ["PRECEDING", "FOLLOWING"])

def frame (p : Parts) : Reader :=
  oneOf ["ROWS", "RANGE", "GROUPS"] >=>
    branch (keyword "BETWEEN") (frameBound p >=> keyword "AND" >=> frameBound p) (frameBound p)

def windowName : Reader
  | t :: rest => if (word [t]).isSome && !t.isAnyKeyword then some rest else none
  | [] => none

/-- Read a window, after its opening parenthesis. -/
def window (p : Parts) : Reader :=
  optional windowName >=> clause (keywords ["PARTITION", "BY"]) p.phrases >=> orderClause p >=>
    branch (symbol ")") nothing (frame p >=> symbol ")")

/-! ## Arguments -/

/-- Read an asterisk, alone or after a name. -/
def wildcard : Reader
  | .symbol "*" :: rest => some rest
  | .word _ _ :: .symbol "." :: rest | .string _ :: .symbol "." :: rest => wildcard rest
  | _ => none

def argument (p : Parts) : Reader :=
  branch (identifier >=> symbol ":=") p.phrase
    (optional (identifier >=> symbol "=>") >=> branch wildcard nothing p.phrase)

def repetition : Reader :=
  branch (keyword "ALL") (fun ts => if startsWith ["DISTINCT"] ts then none else some ts)
    (optional (keyword "DISTINCT"))

def nullTreatment : Reader := clause (oneOf ["RESPECT", "IGNORE"]) (keyword "NULLS")

def overflow (p : Parts) : Reader :=
  let filler : Reader := fun ts =>
    match ts with
    | .string _ :: _ | .marked .escaped _ _ :: _ | .marked .national _ _ :: _
    | .marked .hexadecimal _ _ :: _ => p.phrase ts
    | _ => some ts
  branch (keyword "ERROR") nothing
    (keyword "TRUNCATE" >=> filler >=> oneOf ["WITH", "WITHOUT"] >=> keyword "COUNT")

/-- Read arguments and the clauses among them, after the opening parenthesis. Tells whether the
treatment of nulls is among the clauses. -/
def readArguments? (p : Parts) (ts : List Token) : Option (Bool × List Token) :=
  match symbol ")" ts with
  | some rest => some (false, rest)
  | none => do
    let rest ← (repetition >=> separated (argument p)) ts
    let clauses := nullTreatment >=> orderClause p >=> clause (keyword "LIMIT") p.phrase >=>
      clause (keywords ["ON", "OVERFLOW"]) (overflow p)
    let after ← (clauses >=> symbol ")") rest
    some (startsWith ["RESPECT", "IGNORE"] rest, after)

def arguments (p : Parts) : Reader := fun ts => (readArguments? p ts).map Prod.snd

def call (p : Parts) : Reader := fun ts => do
  let (treated, rest) ← readArguments? p ts
  let group := symbol "(" >=> keywords ["ORDER", "BY"] >=> separated (orderKey p) >=> symbol ")"
  let extent := branch (symbol "(") (window p) identifier
  (clause (keywords ["WITHIN", "GROUP"]) group >=> (if treated then nothing else nullTreatment) >=>
    clause (keyword "OVER") extent) rest

end PrivateQuery.Construct
