/-!
# Tokens of predicate text

The smallest parts of a predicate, without the white space and the comments between them, and how
each is written in a message.
-/
namespace PrivateQuery

/-- What a letter before the quote says about a string. -/
inductive StringMark where
  | bytes
  | raw
  | national
  | escaped
  | hexadecimal
deriving DecidableEq, Repr

def StringMark.letter : StringMark → String
  | bytes => "B"
  | raw => "R"
  | national => "N"
  | escaped => "E"
  | hexadecimal => "X"

inductive Token where
  /-- A word, bare or in quotes. Only a bare word can be a keyword. -/
  | word (text : String) (quote : Option Char)
  /-- A number as it is written, and whether the letter of a long integer follows. -/
  | number (text : String) (long : Bool)
  /-- A string in single quotes. -/
  | string (s : String)
  /-- A string marked by the letter before its quote. -/
  | marked (mark : StringMark) (quote : Char) (s : String)
  /-- A string between two tags in dollar signs. -/
  | dollars (tag s : String)
  /-- A parameter to be filled in. -/
  | placeholder (text : String)
  /-- An operator or a punctuation mark. -/
  | symbol (spelling : String)
deriving DecidableEq, Repr

/-- How a token is written in messages. -/
def Token.spelling : Token → String
  | word text none => text
  | word text (some quote) => quote.toString ++ text ++ quote.toString
  | number text long => if long then text ++ "L" else text
  | string s => "\x27" ++ s ++ "\x27"
  | marked mark quote s => mark.letter ++ quote.toString ++ s ++ quote.toString
  | dollars tag s => "$" ++ tag ++ "$" ++ s ++ "$" ++ tag ++ "$"
  | placeholder text => text
  | symbol spelling => spelling

end PrivateQuery
