import PrivateQuery.Predicate.Quotation
import PrivateQuery.Predicate.Token
import PrivateQuery.Text.Blank

/-!
# From text to tokens

`Token.scan?` cuts a text into tokens and has no answer where a string, a quoted word or a comment
does not end.
-/
namespace PrivateQuery.Token

/-! ## Classes of characters -/

def startsWord (c : Char) : Bool := Text.isLetter c || c == '_' || c == '#' || c == '@'

def continuesWord (c : Char) : Bool :=
  Text.isLetter c || c.isDigit || c == '@' || c == '$' || c == '#' || c == '_'

/-! ## Comments -/

/-- What follows a comment that may hold others; `depth` of them are open, and `last` is the
character before. A character both ends one mark and begins the next. -/
def afterComment? : List Char → (depth : Nat) → (last : Char) → Option (List Char)
  | [], _, _ => none
  | c :: rest, depth, last =>
    if last == '/' && c == '*' then afterComment? rest (depth + 1) c
    else if last == '*' && c == '/' then
      if depth ≤ 1 then some rest else afterComment? rest (depth - 1) c
    else afterComment? rest depth c

/-- What follows a sequence of characters, if the text starts with it. -/
def after? : (start text : List Char) → Option (List Char)
  | [], text => some text
  | c :: start, d :: text => if c == d then after? start text else none
  | _ :: _, [] => none

/-- What a dollar sign begins: a string between two tags or two pairs of signs, or a placeholder. -/
def readAfterDollar? : List Char → Option (Token × List Char)
  | '$' :: rest =>
    (Quotation.readPaired? rest none []).map fun (s, rest) => (dollars "" s, rest)
  | rest =>
    let isTag (c : Char) : Bool := Text.isLetter c || Text.isNumeral c || c == '_'
    let tag := rest.takeWhile isTag
    match rest.dropWhile isTag with
    | '$' :: rest =>
      (Quotation.readTagged? tag rest).map fun (s, rest) => (dollars (String.ofList tag) s, rest)
    | rest => some (placeholder ("$" ++ String.ofList tag), rest)

/-! ## Numbers -/

/-- The exponent of a number: a letter, a sign if there is one, and at least one digit. -/
def readExponent? : List Char → Option (List Char × List Char)
  | e :: rest =>
    if e == 'e' || e == 'E' then
      let (sign, rest) := match rest with
        | '+' :: rest => (['+'], rest)
        | '-' :: rest => (['-'], rest)
        | _ => ([], rest)
      let digits := rest.takeWhile Char.isDigit
      if digits.isEmpty then none else some (e :: sign ++ digits, rest.dropWhile Char.isDigit)
    else none
  | [] => none

/-- A number, a string of hexadecimal digits, or a lone point. -/
def readNumber (cs : List Char) : Token × List Char :=
  let whole := cs.takeWhile Char.isDigit
  match whole, cs.dropWhile Char.isDigit with
  | ['0'], 'x' :: rest =>
    (marked .hexadecimal '\'' (String.ofList (rest.takeWhile Quotation.isHexDigit)),
      rest.dropWhile Quotation.isHexDigit)
  | _, rest =>
    let (point, rest) := match rest with
      | '.' :: rest => (['.'], rest)
      | _ => ([], rest)
    let digits := whole ++ point ++ rest.takeWhile Char.isDigit
    let rest := rest.dropWhile Char.isDigit
    if digits == ['.'] then (symbol ".", rest)
    else
      let (exponent, rest) := (readExponent? rest).getD ([], rest)
      let text := String.ofList (digits ++ exponent)
      match rest with
      | 'L' :: rest => (number text true, rest)
      | _ => (number text false, rest)

/-! ## Words and symbols -/

/-- A bare word that begins with some characters. -/
def readWord (start rest : List Char) : Token × List Char :=
  (word (String.ofList (start ++ rest.takeWhile continuesWord)) none,
    rest.dropWhile continuesWord)

/-- The text of a marked string in single quotes as its token. -/
def ofMarked (mark : StringMark) (s : String × List Char) : Token × List Char :=
  (marked mark '\'' s.1, s.2)

/-- A string with a mark right before its quote, if the letter is a mark for that quote. Bytes keep
their quote; a raw string does not. -/
def readMarked? (letter quote : Char) (rest : List Char) : Option (Option (Token × List Char)) :=
  match letter.toLower, quote with
  | 'b', '\'' | 'b', '"' =>
    some ((Quotation.read? quote false rest []).map fun (s, rest) => (marked .bytes quote s, rest))
  | 'r', '\'' | 'r', '"' => some ((Quotation.read? quote false rest []).map (ofMarked .raw))
  | 'n', '\'' => some ((Quotation.read? quote true rest []).map (ofMarked .national))
  | 'e', '\'' => some ((Quotation.readEscaped? rest).map (ofMarked .escaped))
  | 'x', '\'' => some ((Quotation.read? quote true rest []).map (ofMarked .hexadecimal))
  | _, _ => none

/-- Operators of more than one character, each before its own beginnings. -/
def longSymbols : List String :=
  ["->>", "->", "=>", "==", "<=>", "<=", "<>", "<<", "<@", ">=", ">>", "||/", "||", "|/", "!=",
    "!!", "!~~*", "!~~", "!~*", "!~", "::", ":=", "&&", "^@", "~~*", "~~", "~*", "//"]

/-- The first of some operators that the text starts with. -/
def readSymbol? : (symbols : List String) → List Char → Option (Token × List Char)
  | [], _ => none
  | s :: symbols, cs =>
    match after? s.toList cs with
    | some rest => some (symbol (if s == "!=" then "<>" else s), rest)
    | none => readSymbol? symbols cs

/-- An operator that begins with a number sign, or a word that does. -/
def readNumberSign : List Char → Token × List Char
  | '-' :: rest => (symbol "#-", rest)
  | '>' :: '>' :: rest => (symbol "#>>", rest)
  | '>' :: rest => (symbol "#>", rest)
  | c :: rest => if c == ' ' then (symbol "#", c :: rest) else readWord ['#', c] rest
  | [] => (symbol "#", [])

/-- An operator that begins with an at sign, or a word that does. -/
def readAtSign : List Char → Token × List Char
  | '>' :: rest => (symbol "@>", rest)
  | '?' :: rest => (symbol "@?", rest)
  | '@' :: c :: rest => if c == ' ' then (symbol "@@", c :: rest) else readWord ['@', '@', c] rest
  | '@' :: [] => (symbol "@@", [])
  | c :: rest => if c == ' ' then (symbol "@", c :: rest) else readWord ['@', c] rest
  | [] => (symbol "@", [])

/-! ## The whole text -/

/-- What one step reads: a token, or something between tokens. -/
abbrev Lexeme := Option Token × List Char

def Lexeme.ofToken (t : Token × List Char) : Lexeme := (some t.1, t.2)

/-- Read at a character. -/
def lexeme? (c : Char) (rest : List Char) : Option Lexeme :=
  if c == '-' && rest.head? == some '-' then some (none, (rest.dropWhile (· != '\n')).drop 1)
  else if c == '/' && rest.head? == some '*' then
    (afterComment? (rest.drop 1) 1 ' ').map fun rest => (none, rest)
  else if c == '\'' then (Quotation.read? c false rest []).map fun (s, rest) => (some (string s), rest)
  else if c == '"' || c == '\x60' then
    (Quotation.read? c false rest []).map fun (s, rest) => (some (word s (some c)), rest)
  else if c.isDigit || c == '.' then some (Lexeme.ofToken (readNumber (c :: rest)))
  else if c == '#' then some (Lexeme.ofToken (readNumberSign rest))
  else if c == '@' then some (Lexeme.ofToken (readAtSign rest))
  else if c == '?' then
    some (some (placeholder ("?" ++ String.ofList (rest.takeWhile Text.isNumeral))),
      rest.dropWhile Text.isNumeral)
  else if startsWord c then
    match rest.head?.bind fun quote => readMarked? c quote (rest.drop 1) with
    | some found => found.map Lexeme.ofToken
    | none => some (Lexeme.ofToken (readWord [c] rest))
  else if c == '$' then (readAfterDollar? rest).map Lexeme.ofToken
  else if Text.isBlank c then some (none, rest)
  else some (Lexeme.ofToken ((readSymbol? longSymbols (c :: rest)).getD (symbol c.toString, rest)))

/-- All tokens. Every step reads a character, so there are no more steps than characters. -/
def scanWithin? : (steps : Nat) → List Char → (gathered : List Token) → Option (List Token)
  | _, [], gathered => some gathered.reverse
  | 0, _ :: _, _ => none
  | steps + 1, c :: rest, gathered =>
    match lexeme? c rest with
    | some (some token, rest) => scanWithin? steps rest (token :: gathered)
    | some (none, rest) => scanWithin? steps rest gathered
    | none => none

def scan? (source : String) : Option (List Token) :=
  let cs := source.toList
  scanWithin? cs.length cs []

end PrivateQuery.Token
