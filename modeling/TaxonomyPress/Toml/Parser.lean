import TaxonomyPress.Number.Digits
import TaxonomyPress.Reader
import TaxonomyPress.Toml

/-!
# Reading TOML

* `Toml.basicString`, `literalString` and their forms over several lines;
* `Toml.key` : a key with dots between its parts;
* `Toml.valueBelow` : a text, a moment, a list or an inline table;
* `Toml.Item`, `Toml.parse` : a document as the lines that it is made of, put together in order.
-/

namespace TaxonomyPress

namespace Toml

/-! ## Blanks and comments -/

def isBlank (c : Char) : Bool := c == ' ' || c == '\t'

def blanks : Reader Unit := do
  let _ ← Reader.takeWhile isBlank

/-- Whether `c` may stand in a comment or a string: a tab or no control character. -/
def isPlain (c : Char) : Bool := c == '\t' || (32 ≤ c.toNat && c.toNat != 127)

def lineBreak : Reader Unit := Reader.char '\n' <|> Reader.token "\r\n"

/-- A comment, if one begins here. -/
def comment : Reader Unit :=
  (do Reader.char '#'; let _ ← Reader.takeWhile isPlain) <|> return ()

/-- Blanks, comments and line breaks. -/
def gap : Reader Unit := do
  let _ ← Reader.many (do blanks; comment; lineBreak)
  blanks

/-! ## Strings -/

/-- The character that an escape stands for. -/
def escaped : Reader Char := do
  Reader.char '\\'
  match ← Reader.any with
  | 'b' => return '\x08'
  | 't' => return '\t'
  | 'n' => return '\n'
  | 'f' => return '\x0c'
  | 'r' => return '\r'
  | '"' => return '"'
  | '\\' => return '\\'
  | 'u' => scalar 4
  | 'U' => scalar 8
  | _ => failure
where
  scalar (count : Nat) : Reader Char := do
    match charOfHex (← Reader.exactly count isHexDigit) with
    | some c => return c
    | none => failure

def basicString : Reader String := do
  Reader.char '"'
  let pieces ← Reader.many
    (Reader.takeSome (fun c => isPlain c && c != '"' && c != '\\') <|> (return [← escaped]))
  Reader.char '"'
  return String.ofList pieces.flatten

def literalString : Reader String := do
  Reader.char '\''
  let text ← Reader.takeWhile fun c => isPlain c && c != '\''
  Reader.char '\''
  return String.ofList text

/-- A backslash at the end of a line takes away all blanks up to the next text. -/
def joinedLines : Reader (List Char) := do
  Reader.char '\\'
  blanks
  lineBreak
  let _ ← Reader.many (do blanks; lineBreak)
  blanks
  return []

/-- One or two quotation marks that do not begin the closing three. -/
def innerQuotes (mark : Char) : Reader (List Char) := do
  let marks := (← Reader.rest).takeWhile (· == mark)
  Reader.check (marks.length < 3)
  Reader.takeSome (· == mark)

/-- The closing three marks, and up to two more before them that belong to the text. -/
def closingQuotes (mark : Char) : Reader (List Char) := do
  let marks ← Reader.takeWhile (· == mark)
  Reader.check (3 ≤ marks.length && marks.length ≤ 5)
  return marks.drop 3

/-- A line break inside a text, always written as one character. -/
def innerBreak : Reader (List Char) := do
  lineBreak
  return ['\n']

/-- A text over several lines between three marks. A line break behind the opening marks does not
count. -/
def multiline (mark : Char) (piece : Reader (List Char)) : Reader String := do
  Reader.token (String.ofList [mark, mark, mark])
  lineBreak <|> return ()
  let pieces ← Reader.many (piece <|> innerBreak <|> innerQuotes mark)
  let back ← closingQuotes mark
  return String.ofList (pieces.flatten ++ back)

def multilineBasic : Reader String :=
  multiline '"' (Reader.takeSome (fun c => isPlain c && c != '"' && c != '\\')
    <|> (return [← escaped]) <|> joinedLines)

def multilineLiteral : Reader String :=
  multiline '\'' (Reader.takeSome fun c => isPlain c && c != '\'')

/-- A text in any of the four forms. -/
def textForm : Reader String := do
  if ← Reader.isNext "\"\"\"" then multilineBasic
  else if ← Reader.isNext "'''" then multilineLiteral
  else if ← Reader.isNext "\"" then basicString
  else literalString

/-! ## Keys and values -/

def isBareKeyChar (c : Char) : Bool :=
  ('a' ≤ c && c ≤ 'z') || ('A' ≤ c && c ≤ 'Z') || isDecimalDigit c || c == '_' || c == '-'

/-- A part of a key: bare, or between quotation marks. -/
def simpleKey : Reader String :=
  (String.ofList <$> Reader.takeSome isBareKeyChar) <|> basicString <|> literalString

/-- The parts of a key. -/
def key : Reader (List String) :=
  Reader.separated (do blanks; Reader.char '.'; blanks) simpleKey

/-- Adds a key of an inline table. -/
def defineAll (entries : List (List String × Toml)) : Option Entries :=
  entries.foldlM (fun table (path, value) => define value path table) []

/-- A value that is nested less than `depth` levels. -/
def valueBelow : Nat → Reader Toml
  | 0 => failure
  | depth + 1 => do
    match ← Reader.peek with
    | some '[' =>
      Reader.char '['
      gap
      let items ← Reader.separated (do Reader.char ','; gap) (do
        let item ← valueBelow depth
        gap
        return item) <|> pure []
      unless items.isEmpty do
        (do Reader.char ','; gap) <|> pure ()
      Reader.char ']'
      return .list items
    | some '\x7b' =>
      Reader.char '\x7b'
      blanks
      let entries ← Reader.separated (do Reader.char ','; blanks) (do
        let path ← key
        blanks
        Reader.char '='
        blanks
        let value ← valueBelow depth
        blanks
        return (path, value)) <|> pure []
      Reader.char '\x7d'
      match defineAll entries with
      | some inner => return .table .inline inner
      | none => failure
    | some c => if isDecimalDigit c then .moment <$> Moment.reader else .text <$> textForm
    | none => failure

/-! ## Documents -/

/-- A line with content. -/
inductive Item where
  | header (path : List String)
  | assignment (path : List String) (value : Toml)

/-- A header or an assignment, for values that are nested less than `depth` levels. -/
def item (depth : Nat) : Reader Item := do
  match ← Reader.peek with
  | some '[' =>
    Reader.char '['
    blanks
    let path ← key
    blanks
    Reader.char ']'
    return .header path
  | _ =>
    let path ← key
    blanks
    Reader.char '='
    blanks
    return .assignment path (← valueBelow depth)

/-- The end of a line: blanks, a comment, and a line break unless the text ends. -/
def lineEnd : Reader Unit := do
  blanks
  comment
  let after ← Reader.rest
  if after.isEmpty then return () else lineBreak

/-- All items of a document. -/
def items : Reader (List Item) := do
  let depth := (← Reader.rest).length + 1
  (Reader.token "\uFEFF") <|> pure ()
  gap
  let found ← Reader.many (do
    let found ← item depth
    lineEnd
    gap
    return found)
  comment
  return found

/-- The entries after an item, and the table that is open then. -/
def addItem (state : List String × Entries) : Item → Option (List String × Entries)
  | .header path => (openTable path state.2).map (path, ·)
  | .assignment path value => (update (define value path) state.1 state.2).map (state.1, ·)

/-- The entries of a document. -/
def parse (document : String) : Option Entries := do
  let found ← Reader.run items document.toList
  let (_, entries) ← found.foldlM addItem ([], [])
  return entries

end Toml

end TaxonomyPress
