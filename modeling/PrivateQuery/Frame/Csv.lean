import PrivateQuery.Frame.Basic
import PrivateQuery.Schema.Basic

/-!
# Frames from comma-separated text

A line of the text is a row, the first one is the header. A field may be in quotes, and then holds
separators and line ends as they are and a quote for every doubled one; text after the closing quote
belongs to the field as it is. Empty lines do not count.
-/
namespace PrivateQuery

namespace Csv

/-- Where in a line a character is met. -/
inductive Spot where
  /-- Before the first field of a line. -/
  | lineStart
  | fieldStart
  | bare
  | quoted
  /-- After a quote inside a quoted field: its end, or the first of a doubled quote. -/
  | afterQuote
deriving DecidableEq, Repr

/-- What has been read: whole lines, the fields of the current one and its last field, latest
first. -/
structure Gathered where
  spot : Spot
  lines : List (List String)
  fields : List String
  field : List Char

namespace Gathered

def start : Gathered := ⟨.lineStart, [], [], []⟩

def push (g : Gathered) (spot : Spot) (c : Char) : Gathered :=
  { g with spot, field := c :: g.field }

/-- The fields of the current line, the open one included. -/
def close (g : Gathered) : List String := String.ofList g.field.reverse :: g.fields

def endField (g : Gathered) : Gathered :=
  { g with spot := .fieldStart, fields := g.close, field := [] }

def endLine (g : Gathered) : Gathered := ⟨.lineStart, g.close.reverse :: g.lines, [], []⟩

/-- A character outside quotes. -/
def readBare (g : Gathered) (c : Char) : Gathered :=
  if c == ',' then g.endField
  else if c == '\n' || c == '\r' then g.endLine
  else g.push .bare c

def read (g : Gathered) (c : Char) : Gathered :=
  match g.spot with
  | .lineStart =>
    if c == '\n' || c == '\r' then g
    else if c == '"' then { g with spot := .quoted }
    else g.readBare c
  | .fieldStart => if c == '"' then { g with spot := .quoted } else g.readBare c
  | .bare => g.readBare c
  | .quoted => if c == '"' then { g with spot := .afterQuote } else g.push .quoted c
  | .afterQuote => if c == '"' then g.push .quoted c else g.readBare c

def finish (g : Gathered) : List (List String) :=
  (if g.spot == .lineStart then g else g.endLine).lines.reverse

end Gathered

/-- The text without a mark of its byte order. -/
def withoutMark : List Char → List Char
  | c :: rest => if c == '\ufeff' then rest else c :: rest
  | [] => []

def lines (text : String) : List (List String) :=
  ((withoutMark text.toList).foldl Gathered.read Gathered.start).finish

example : lines "\ufeffa,b\r\n\n\"x\"\"y\"z,\"1\n2\"\n" = [["a", "b"], ["x\"yz", "1\n2"]] := by
  decide +kernel
example : lines "a,\n" = [["a", ""]] ∧ lines "\"\"" = [[""]] ∧ lines "" = [] := by decide +kernel

end Csv

namespace Frame

/-- The type of a column under a schema; other columns are text. -/
def typeUnder (schema : Schema) (name : String) : ColumnType :=
  match schema.find? name with
  | some column => column.type
  | none => .text

/-- The rows of some lines, which must have as many fields as there are types. -/
def readRows (types : List ColumnType) : (lines : List (List String)) →
    Except FrameError (List (List Value))
  | [] => .ok []
  | line :: lines =>
    if line.length != types.length then .error .unevenPayload
    else (readRows types lines).map (List.zipWith ColumnType.read types line :: ·)

/-- Read a header and rows whose cells are typed by a schema (`Dataset.from_csv`). The header must
have every column of the schema, in any order, and may have others. -/
def ofCsv (payload : String) (schema : Schema) : Except FrameError Frame := do
  let (first, rest) := match Csv.lines payload with
    | [] => ([], [])
    | first :: rest => (first, rest)
  let header := first.map Text.trim
  match schema.names.find? fun name => !header.contains name with
  | some name => .error (.missingColumn name)
  | none => ofRows header (← readRows (header.map (typeUnder schema)) rest)

end Frame

end PrivateQuery
