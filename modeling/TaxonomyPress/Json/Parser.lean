import TaxonomyPress.Json
import TaxonomyPress.Reader

/-!
# Reading JSON

* `Json.parse` : the value that a text writes; the whole text must be one value;
* `Json.stringBody` : a quoted string with its escapes, where two surrogate escapes make one
  character;
* members stay in the order in which they are written, also repeated ones.
-/

namespace TaxonomyPress

namespace Json

/-- Blanks between tokens. -/
def blanks : Reader Unit := do
  let _ ← Reader.takeWhile fun c => c == ' ' || c == '\n' || c == '\r' || c == '\t'

/-! ## Strings -/

/-- The character behind a backslash, for the short escapes. -/
def shortEscape (c : Char) : Option Char :=
  match c with
  | '"' => some '"'
  | '\\' => some '\\'
  | '/' => some '/'
  | 'b' => some '\x08'
  | 'f' => some '\x0c'
  | 'n' => some '\n'
  | 'r' => some '\r'
  | 't' => some '\t'
  | _ => none

/-- The character of a surrogate pair. -/
def ofSurrogates (high low : Nat) : Option Char :=
  if 0xD800 ≤ high ∧ high < 0xDC00 ∧ 0xDC00 ≤ low ∧ low < 0xE000 then
    some (Char.ofNat (0x10000 + (high - 0xD800) * 1024 + (low - 0xDC00)))
  else none

/-- Four hexadecimal digits, and the escape of a low surrogate behind a high one. -/
def unicodeEscape : Reader Char := do
  let first ← Reader.exactly 4 isHexDigit
  match charOfHex first with
  | some c => return c
  | none =>
    Reader.token "\\u"
    let second ← Reader.exactly 4 isHexDigit
    match ofSurrogates (ofDigits 16 first) (ofDigits 16 second) with
    | some c => return c
    | none => failure

/-- A run of plain characters, or one escape. -/
def stringPiece : Reader (List Char) :=
  Reader.takeSome (fun c => c != '"' && c != '\\' && 32 ≤ c.toNat)
  <|> (do
    Reader.char '\\'
    let c ← Reader.any
    match shortEscape c with
    | some plain => return [plain]
    | none =>
      Reader.check (c == 'u')
      return [← unicodeEscape])

/-- A string between quotation marks. -/
def stringBody : Reader String := do
  Reader.char '"'
  let pieces ← Reader.many stringPiece
  Reader.char '"'
  return String.ofList pieces.flatten

/-! ## Numbers -/

/-- The digits in front of a point: no leading zero. -/
def wholeDigits : Reader (List Char) := do
  let digits ← Reader.takeSome isDecimalDigit
  Reader.check (digits.length == 1 || digits.head? != some '0')
  return digits

/-- A point and its digits, or nothing. -/
def fractionPart : Reader (List Char) :=
  (do Reader.char '.'; return '.' :: (← Reader.takeSome isDecimalDigit)) <|> return []

/-- An exponent, or nothing. -/
def exponentPart : Reader (List Char) :=
  (do
    let mark ← Reader.satisfying fun c => c == 'e' || c == 'E'
    let sign ← (do return [← Reader.satisfying fun c => c == '+' || c == '-']) <|> return []
    return mark :: sign ++ (← Reader.takeSome isDecimalDigit))
  <|> return []

/-- A number, as it is written. -/
def numberText : Reader String := do
  let sign ← (do Reader.char '-'; return ['-']) <|> return []
  let whole ← wholeDigits
  let fraction ← fractionPart
  let power ← exponentPart
  -- a point or a mark that begins no part of the number is no text of its own
  let next ← Reader.peek
  Reader.check (next != some '.' && next != some 'e' && next != some 'E')
  return String.ofList (sign ++ whole ++ fraction ++ power)

/-! ## Values -/

/-- Items up to the closing character, with commas between them. -/
def enclosed {α : Type} (opening closing : Char) (item : Reader α) : Reader (List α) := do
  Reader.char opening
  blanks
  let items ← Reader.separated (do Reader.char ','; blanks) item <|> pure []
  Reader.char closing
  return items

/-- A value that is nested less than `depth` levels, and the blanks behind it. -/
def valueBelow : Nat → Reader Json
  | 0 => failure
  | depth + 1 => do
    let member : Reader (String × Json) := do
      let key ← stringBody
      blanks
      Reader.char ':'
      blanks
      return (key, ← valueBelow depth)
    let value ← match ← Reader.peek with
      | some '\x7b' => .object <$> enclosed '\x7b' '\x7d' member
      | some '[' => .array <$> enclosed '[' ']' (valueBelow depth)
      | some '"' => .string <$> stringBody
      | some 't' => do Reader.token "true"; pure (.boolean true)
      | some 'f' => do Reader.token "false"; pure (.boolean false)
      | some 'n' => do Reader.token "null"; pure .null
      | _ => .number <$> numberText
    blanks
    return value

/-- The value that `text` writes. No value is nested deeper than its text is long. -/
def parse (text : String) : Option Json :=
  let cs := text.toList
  Reader.run (do blanks; valueBelow (cs.length + 1)) cs

end Json

end TaxonomyPress
