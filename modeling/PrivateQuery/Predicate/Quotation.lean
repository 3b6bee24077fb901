import PrivateQuery.Text.Letter

/-!
# Text in quotes

The text between two quotes, after the first one, with what follows the second. A quote doubled
stands for itself. What a backslash does depends on the kind of text: nothing, one of the short
escapes of `control`, or one of the escapes of `readEscape?`, which name characters by their codes.
Between dollar signs the text stands as it is and ends where its tag comes again.
-/
namespace PrivateQuery.Quotation

/-! ## Short escapes -/

/-- What a character stands for after a backslash. -/
def control : Char → Char
  | '0' => '\x00'
  | 'a' => '\x07'
  | 'b' => '\x08'
  | 'f' => '\x0c'
  | 'n' => '\n'
  | 'r' => '\r'
  | 't' => '\t'
  | 'Z' => '\x1a'
  | c => c

/-- The text up to a quote, with short escapes where `escapes` is set. -/
def read? (quote : Char) (escapes : Bool) : List Char → (gathered : List Char) →
    Option (String × List Char)
  | [], _ => none
  | [c], gathered => if c == quote then some (String.ofList gathered.reverse, []) else none
  | c :: next :: rest, gathered =>
    if c == quote then
      if next == quote then read? quote escapes rest (quote :: gathered)
      else some (String.ofList gathered.reverse, next :: rest)
    else if escapes && c == '\\' then read? quote escapes rest (control next :: gathered)
    else read? quote escapes (next :: rest) (c :: gathered)

theorem read?_quote (quote : Char) (escapes : Bool) (gathered : List Char) :
    read? quote escapes [quote] gathered = some (String.ofList gathered.reverse, []) := by
  simp [read?]

/-! ## Escapes by code -/

def isOctalDigit (c : Char) : Bool := '0' ≤ c && c ≤ '7'

def isHexDigit (c : Char) : Bool := c.isDigit || ('a' ≤ c && c ≤ 'f') || ('A' ≤ c && c ≤ 'F')

/-- The number that a digit stands for, in either case of the letters. -/
def digitValue (c : Char) : Nat :=
  if c.isDigit then c.toNat - 48 else if 'a' ≤ c then c.toNat - 87 else c.toNat - 55

def ofDigits (base : Nat) (digits : List Char) : Nat :=
  digits.foldl (fun n c => base * n + digitValue c) 0

/-- The character of a code. No character has the code of a surrogate, and NUL is refused. -/
def ofCode? (code : Nat) : Option Char :=
  if code.isValidChar && code != 0 then some (Char.ofNat code) else none

/-- The character of a byte, which has to be an ASCII one. Higher bits of the number are lost. -/
def ofByte? (n : Nat) : Option Char := if n % 256 < 128 then ofCode? (n % 256) else none

/-- The character of a code in `count` hexadecimal digits, the first of which may be a plus sign. -/
def readCode? (count : Nat) (cs : List Char) : Option (Char × List Char) :=
  let taken := cs.take count
  let digits := match taken with
    | '+' :: digits => digits
    | digits => digits
  if taken.length == count && !digits.isEmpty && digits.all isHexDigit then
    (ofCode? (ofDigits 16 digits)).map fun c => (c, cs.drop count)
  else none

/-- The character that an escape stands for, after its backslash. A code is given by four digits
after `u`, eight after `U`, up to two after `x`, or up to three octal ones. -/
def readEscape? : List Char → Option (Char × List Char)
  | [] => none
  | 'b' :: rest => some ('\x08', rest)
  | 'f' :: rest => some ('\x0c', rest)
  | 'n' :: rest => some ('\n', rest)
  | 'r' :: rest => some ('\r', rest)
  | 't' :: rest => some ('\t', rest)
  | 'u' :: rest => readCode? 4 rest
  | 'U' :: rest => readCode? 8 rest
  | 'x' :: rest =>
    let digits := (rest.take 2).takeWhile isHexDigit
    if digits.isEmpty then some ('x', rest)
    else (ofByte? (ofDigits 16 digits)).map fun c => (c, rest.drop digits.length)
  | c :: rest =>
    if isOctalDigit c then
      let digits := (rest.take 2).takeWhile isOctalDigit
      (ofByte? (ofDigits 8 (c :: digits))).map fun c => (c, rest.drop digits.length)
    else if c == '\x00' then none
    else some (c, rest)

/-- The text up to a single quote, with escapes by code. -/
def readEscapedWithin? : (steps : Nat) → List Char → (gathered : List Char) →
    Option (String × List Char)
  | 0, _, _ => none
  | _ + 1, [], _ => none
  | steps + 1, c :: rest, gathered =>
    if c == '\x27' then
      if rest.head? == some '\x27' then readEscapedWithin? steps (rest.drop 1) (c :: gathered)
      else some (String.ofList gathered.reverse, rest)
    else if c == '\\' then
      match readEscape? rest with
      | some (c, rest) => readEscapedWithin? steps rest (c :: gathered)
      | none => none
    else readEscapedWithin? steps rest (c :: gathered)

/-- The text up to a single quote, with escapes by code. Every step reads a character, so there are
no more steps than characters. -/
def readEscaped? (cs : List Char) : Option (String × List Char) :=
  readEscapedWithin? cs.length cs []

/-! ## Dollar signs -/

/-- What a dollar sign inside a text turns out to be. -/
inductive DollarSign where
  /-- The first one of the closing tag, with what follows the tag. -/
  | closing (rest : List Char)
  /-- A part of the text, as the characters after it are, the last one first. -/
  | inner (passed rest : List Char)
  /-- The text ends within the tag. -/
  | cut

/-- Compare a tag with the characters after a dollar sign. The first one that differs from the tag
counts as passed. -/
def compareTag : (tag cs passed : List Char) → DollarSign
  | [], '$' :: rest, _ => .closing rest
  | [], rest, passed => .inner passed rest
  | _ :: _, [], _ => .cut
  | c :: tag, d :: rest, passed =>
    if c == d then compareTag tag rest (d :: passed) else .inner (d :: passed) rest

/-- The text up to a tag in dollar signs. -/
def readTaggedWithin? (tag : List Char) : (steps : Nat) → List Char → (gathered : List Char) →
    Option (String × List Char)
  | 0, _, _ => none
  | _ + 1, [], _ => none
  | steps + 1, c :: rest, gathered =>
    if c == '$' then
      match compareTag tag rest [] with
      | .closing rest => some (String.ofList gathered.reverse, rest)
      | .inner passed rest => readTaggedWithin? tag steps rest (passed ++ c :: gathered)
      | .cut => none
    else readTaggedWithin? tag steps rest (c :: gathered)

/-- The text up to a tag in dollar signs. Every step reads a character. -/
def readTagged? (tag cs : List Char) : Option (String × List Char) :=
  readTaggedWithin? tag cs.length cs []

/-- The text up to a pair of dollar signs; `last` is the character before. -/
def readPaired? : List Char → (last : Option Char) → (gathered : List Char) →
    Option (String × List Char)
  | [], _, _ => none
  | c :: rest, last, gathered =>
    if last == some '$' then
      if c == '$' then some (String.ofList gathered.reverse, rest)
      else readPaired? rest (some c) (c :: '$' :: gathered)
    else if c == '$' then readPaired? rest (some c) gathered
    else readPaired? rest (some c) (c :: gathered)

end PrivateQuery.Quotation
