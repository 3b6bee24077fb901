import PrivateQuery.Predicate.Construct.Call

/-!
# Constructs with a keyword in front

The constructs that begin with a keyword of their own and go on in their own way. Each reader starts
after the keyword.
-/
namespace PrivateQuery.Construct

open Reader

/-! ## Choice and conversion -/

def choice (p : Parts) : Reader :=
  let arm := keyword "WHEN" >=> p.phrase >=> keyword "THEN" >=> p.phrase
  (fun ts => if startsWith ["WHEN"] ts then some ts else p.phrase ts) >=> arm >=>
    repeated (startsWith ["WHEN"]) arm >=> clause (keyword "ELSE") p.phrase >=> keyword "END"

def format : Reader :=
  clause (keyword "FORMAT") (literal >=> clause (keywords ["AT", "TIME", "ZONE"]) literal)

/-- Read a conversion to a type, in the words of a cast. -/
def cast (p : Parts) : Reader := parenthesized (p.phrase >=> keyword "AS" >=> type >=> format)

/-- Read a conversion to a character set or to a type. -/
def conversion (p : Parts) : Reader :=
  let characters := clause (keywords ["CHARACTER", "SET"]) name
  parenthesized
    (p.phrase >=> branch (keyword "USING") name (symbol "," >=> type >=> characters))

/-! ## Functions with words among their arguments -/

def extraction (p : Parts) : Reader := parenthesized (timeUnit >=> keyword "FROM" >=> p.phrase)

def rounding (p : Parts) : Reader := parenthesized (p.phrase >=> clause (keyword "TO") timeUnit)

/-- Read a search for a text in another; `power` is how strongly membership binds. -/
def position (p : Parts) (power : Nat) : Reader :=
  parenthesized (p.operand power >=> keyword "IN" >=> p.phrase)

def substring (p : Parts) : Reader :=
  let mark (word : String) : Reader := branch (keyword word) nothing (symbol ",")
  parenthesized (p.phrase >=> clause (mark "FROM") p.phrase >=> clause (mark "FOR") p.phrase)

def overlay (p : Parts) : Reader :=
  parenthesized (p.phrase >=> keyword "PLACING" >=> p.phrase >=> keyword "FROM" >=> p.phrase >=>
    clause (keyword "FOR") p.phrase)

def trimming (p : Parts) : Reader :=
  parenthesized (optional (oneOf ["BOTH", "LEADING", "TRAILING"]) >=> p.phrase >=>
    branch (keyword "FROM") p.phrase (clause (symbol ",") p.phrases))

def textSearch : Reader :=
  let modifier := branch (keywords ["IN", "NATURAL", "LANGUAGE", "MODE"])
    (optional (keywords ["WITH", "QUERY", "EXPANSION"]))
    (branch (keywords ["IN", "BOOLEAN", "MODE"]) nothing
      (optional (keywords ["WITH", "QUERY", "EXPANSION"])))
  columns >=> keyword "AGAINST" >=> parenthesized (literal >=> modifier)

/-! ## Composite values -/

def array (p : Parts) : Reader := branch (symbol "]") nothing (p.phrases >=> symbol "]")

def dictionary (p : Parts) : Reader :=
  separated (identifier >=> symbol ":" >=> p.phrase) >=> symbol "\x7d"

/-- Read a structure. Its fields are named by its type or one by one. -/
def structured (p : Parts) : Reader := fun ts => do
  let (typed, rest) ← TypeName.readStructure? ts
  let label := clause (keyword "AS") (if typed then refuse else identifier)
  parenthesized (separated (p.phrase >=> label)) rest

/-- Read a function of time, with its arguments if there are any. -/
def timeFunction (p : Parts) : Reader := clause (symbol "(") (arguments p)

/-! ## By keyword -/

/-- How the construct goes on that a keyword begins, if it begins one before the given tokens. -/
def afterKeyword? (p : Parts) (membershipPower : Nat) (word : String) (ts : List Token) :
    Option Reader :=
  match word with
  | "CASE" => some (choice p)
  | "CONVERT" => some (conversion p)
  | "CAST" | "TRY_CAST" | "SAFE_CAST" => some (cast p)
  | "EXISTS" => some (parenthesized p.query)
  | "EXTRACT" => some (extraction p)
  | "CEIL" | "FLOOR" => some (rounding p)
  | "POSITION" => if (symbol "(" ts).isSome then some (position p membershipPower) else none
  | "SUBSTRING" => some (substring p)
  | "OVERLAY" => some (overlay p)
  | "TRIM" => some (trimming p)
  | "INTERVAL" => some (interval p)
  | "MATCH" => some textSearch
  | "STRUCT" => some (structured p)
  | "ARRAY" =>
    if (symbol "[" ts).isSome then some (symbol "[" >=> array p)
    else if (symbol "(" ts).isSome then some (parenthesized p.query)
    else none
  | _ => none

end PrivateQuery.Construct
