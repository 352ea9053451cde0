import TaxonomyPress.Rdf.Iri
import TaxonomyPress.Rdf.LanguageTag
import TaxonomyPress.Reader

/-!
# Terminals that N-Triples and Turtle share

* `isNameStart`, `isNameChar` : the characters of blank node labels and prefixed names;
* `Terminal.iriText`, `quotedText`, `languageTag`, `blankLabel` : the terminals themselves;
* `Terminal.languageTag` gives a tag in lower case, and only a well-formed one;
* `Terminal.nestingLimit` : terms may be nested no deeper.
-/

namespace TaxonomyPress

/-- Characters beyond ASCII that may begin a name. -/
def nameStartRanges : List (Nat × Nat) :=
  [(0xC0, 0xD6), (0xD8, 0xF6), (0xF8, 0x2FF), (0x370, 0x37D), (0x37F, 0x1FFF), (0x200C, 0x200D),
   (0x2070, 0x218F), (0x2C00, 0x2FEF), (0x3001, 0xD7FF), (0xF900, 0xFDCF), (0xFDF0, 0xFFFD),
   (0x10000, 0xEFFFF)]

/-- Whether `c` may begin a prefix. -/
def isPrefixStart (c : Char) : Bool := isAsciiLetter c || inRanges nameStartRanges c

/-- Whether `c` may begin a label or a local name, where digits may too. -/
def isNameStart (c : Char) : Bool := isPrefixStart c || c == '_'

/-- Whether `c` may stand inside a name. -/
def isNameChar (c : Char) : Bool :=
  isNameStart c || c == '-' || isDecimalDigit c
    || inRanges [(0xB7, 0xB7), (0x300, 0x36F), (0x203F, 0x2040)] c

namespace Terminal

/-- How many terms may stand one inside the other. -/
def nestingLimit : Nat := 128

/-- The character behind `\u` or `\U`. -/
def numericEscape : Reader Char := do
  let mark ← Reader.any
  let digits ←
    if mark == 'u' then Reader.exactly 4 isHexDigit
    else if mark == 'U' then Reader.exactly 8 isHexDigit
    else failure
  match charOfHex digits with
  | some c => return c
  | none => failure

/-- The text between angle brackets, with its escapes resolved. -/
def iriText : Reader (List Char) := do
  Reader.char '<'
  let pieces ← Reader.many
    (Reader.takeSome (fun c => c != '>' && c != '\\' && 32 < c.toNat)
    <|> (do Reader.char '\\'; return [← numericEscape]))
  Reader.char '>'
  return pieces.flatten

/-- The character that an escape in a string stands for. -/
def stringEscape : Reader Char := do
  Reader.char '\\'
  match ← Reader.peek with
  | some 'u' => numericEscape
  | some 'U' => numericEscape
  | some c =>
    let _ ← Reader.any
    match c with
    | 't' => return '\t'
    | 'b' => return '\x08'
    | 'n' => return '\n'
    | 'r' => return '\r'
    | 'f' => return '\x0c'
    | '"' => return '"'
    | '\'' => return '\''
    | '\\' => return '\\'
    | _ => failure
  | none => failure

/-- A string between two `mark`s on one line. -/
def quotedText (mark : Char) : Reader String := do
  Reader.char mark
  let pieces ← Reader.many
    (Reader.takeSome (fun c => c != mark && c != '\\' && c != '\n' && c != '\r')
    <|> (return [← stringEscape]))
  Reader.char mark
  return String.ofList pieces.flatten

/-- Lower case for ASCII letters. -/
def lowerAscii (c : Char) : Char :=
  if 'A' ≤ c ∧ c ≤ 'Z' then Char.ofNat (c.toNat + 32) else c

/-- A language tag behind its `@`. Letters, digits and hyphens belong to it as far as they go. -/
def languageTag : Reader String := do
  Reader.char '@'
  let tag := (← Reader.takeSome fun c => isAsciiAlphanumeric c || c == '-').map lowerAscii
  Reader.check (LanguageTag.isWellFormed tag)
  return String.ofList tag

/-- A dot inside a label or a prefix, which another character of a name follows. -/
def innerDot : Reader (List Char) := do
  Reader.char '.'
  match ← Reader.peek with
  | some c => do
    Reader.check (isNameChar c)
    return ['.']
  | none => failure

/-- The label of a blank node behind `_:`. -/
def blankLabel : Reader String := do
  Reader.token "_:"
  let first ← Reader.satisfying fun c => isNameStart c || isDecimalDigit c
  let others ← Reader.many (Reader.takeSome isNameChar <|> innerDot)
  return String.ofList (first :: others.flatten)

end Terminal

end TaxonomyPress
