import TaxonomyPress.Rdf.Statement
import TaxonomyPress.Rdf.Terminals

/-!
# Turtle

* `Turtle.State` : the base, the prefixes, the count of anonymous nodes and what has been said;
* `Turtle.TurtleReader` : a reader that changes the state; `repeatWhile` is its loop;
* `Turtle.iri`, `literal`, `objectBelow` : terms; a property list or a collection says its own
  statements before the one that it stands in;
* `Turtle.statement`, `Turtle.parse` : directives, statements and documents.
-/

namespace TaxonomyPress

namespace Turtle

/-- What a document has set up and said so far; `said` is in reverse. -/
structure State where
  base : Option String := none
  prefixes : List (String × String) := []
  anonymous : Nat := 0
  said : List Statement := []

/-- A reader that knows and changes the state. -/
abbrev TurtleReader (α : Type) := StateT State Reader α

/-- Runs `step` while it asks for more. Each step that does takes a character or more, so `budget`,
which has a character for each of them, may be the text itself. -/
def repeatWhile (step : TurtleReader Bool) (budget : List Char) : TurtleReader Unit := do
  if ← step then
    match budget with
    | [] => failure
    | _ :: budget => repeatWhile step budget

/-- The loop with the rest of the text as its budget. -/
def loop (step : TurtleReader Bool) : TurtleReader Unit := do
  repeatWhile step (← Reader.rest)

/-! ## State -/

/-- Says a statement. -/
def say (subject predicate object : StatementTerm) : TurtleReader Unit :=
  modify fun state => { state with said := { subject, predicate, object } :: state.said }

/-- The label of the anonymous node with the given number. -/
def anonymousLabel (n : Nat) : String := "riog" ++ paddedText 8 n

/-- A node without a label of its own. -/
def freshNode : TurtleReader StatementTerm := do
  let n := (← get).anonymous + 1
  modify fun state => { state with anonymous := n }
  return .term (.blank (anonymousLabel n))

/-- Whether a written label could be that of an anonymous node, perhaps already kept apart. -/
def looksAnonymous (label : String) : Bool :=
  match Text.dropPrefix "riog" label with
  | none => false
  | some rest =>
    let cs := rest.toList
    8 ≤ cs.length && (cs.take 8).all isDecimalDigit && (cs.drop 8).all (· == 'd')

/-- A written label, kept apart from those of anonymous nodes. -/
def keepApart (label : String) : String := if looksAnonymous label then label ++ "d" else label

/-! ## Blanks -/

def isBlank (c : Char) : Bool := c == ' ' || c == '\t' || c == '\n' || c == '\r'

/-- Blanks, line breaks and comments. -/
def gap : Reader Unit := do
  let _ ← Reader.many (do
    let _ ← Reader.takeWhile isBlank
    Reader.char '#'
    let _ ← Reader.takeWhile fun c => c != '\n' && c != '\r')
  let _ ← Reader.takeWhile isBlank

/-- Whether `[` and blanks and `]` come next. -/
def isEmptyBrackets : Reader Bool := do
  match ← Reader.rest with
  | '[' :: cs => return (cs.dropWhile isBlank).head? == some ']'
  | _ => return false

/-! ## IRIs -/

/-- An IRI between angle brackets, seen from the base. -/
def bracketedIri : TurtleReader String := do
  let cs ← Terminal.iriText
  match resolveIri (← get).base cs with
  | some i => return i
  | none => failure

/-- A prefix with its colon. -/
def prefixName : Reader String := do
  let name ← (do
    let first ← Reader.satisfying isPrefixStart
    let others ← Reader.many (Reader.takeSome isNameChar <|> Terminal.innerDot)
    return first :: others.flatten) <|> return []
  Reader.char ':'
  return String.ofList name

/-- Characters that a backslash may stand before in a local name. -/
def escapable : List Char := "_~.-!$&'()*+,;=/?#@%".toList

/-- An escape in a local name: `%` and two digits stay as they are, a backslash goes. -/
def localEscape : Reader (List Char) :=
  (do
    Reader.char '%'
    let digits ← Reader.exactly 2 isHexDigit
    return '%' :: digits)
  <|> (do
    Reader.char '\\'
    return [← Reader.satisfying fun c => escapable.contains c])

/-- Dots inside a local name, which something other than a dot follows. -/
def innerDots : Reader (List Char) := do
  let dots ← Reader.takeSome (· == '.')
  match ← Reader.peek with
  | some c => do
    Reader.check (isNameChar c || c == ':' || c == '%' || c == '\\')
    return dots
  | none => failure

/-- The local part of a prefixed name, which may be empty. -/
def localName : Reader (List Char) :=
  (do
    let first ←
      (return [← Reader.satisfying fun c => isNameStart c || c == ':' || isDecimalDigit c])
      <|> localEscape
    let others ← Reader.many
      (Reader.takeSome (fun c => isNameChar c || c == ':') <|> localEscape <|> innerDots)
    return first ++ others.flatten)
  <|> return []

/-- The IRI of a prefixed name. -/
def prefixedIri : TurtleReader String := do
  let name ← prefixName
  match (← get).prefixes.find? (·.1 = name) with
  | some (_, i) =>
    let rest ← localName
    return i ++ String.ofList rest
  | none => failure

def iri : TurtleReader String := do
  match ← Reader.peek with
  | some '<' => bracketedIri
  | _ => prefixedIri

/-! ## Literals -/

/-- Whether the character at `offset` does not go on with a name. -/
def endsWord (offset : Nat) : Reader Bool := do
  match ((← Reader.rest).drop offset).head? with
  | some c => return !(isNameChar c || c == ':')
  | none => return true

/-- The keyword `word`, unless it is the beginning of a longer name. -/
def isKeyword (word : String) : Reader Bool := do
  if ← Reader.isNext word then endsWord word.length else return false

/-- A quotation mark, or two of them, inside a string over several lines. -/
def innerMarks (mark : Char) : Reader (List Char) := do
  let marks := (← Reader.rest).takeWhile (· == mark)
  Reader.check (marks.length < 3)
  Reader.takeSome (· == mark)

/-- A string between three marks. -/
def longText (mark : Char) : Reader String := do
  let marks := String.ofList [mark, mark, mark]
  Reader.token marks
  let pieces ← Reader.many
    (Reader.takeSome (fun c => c != mark && c != '\\') <|> (return [← Terminal.stringEscape])
      <|> innerMarks mark)
  Reader.token marks
  return String.ofList pieces.flatten

def quotedText (mark : Char) : Reader String := do
  if ← Reader.isNext (String.ofList [mark, mark, mark]) then longText mark
  else Terminal.quotedText mark

/-- A string with an optional language or datatype. -/
def stringLiteral (mark : Char) : TurtleReader Literal := do
  let text ← quotedText mark
  gap
  match ← Reader.peek with
  | some '@' => return { text, language := some (← Terminal.languageTag) }
  | some '^' =>
    Reader.token "^^"
    gap
    return { text, datatype := some (← iri) }
  | _ => return { text }

/-- The point of a number, if digits or an exponent follow it. -/
def numberPoint : Reader (List Char) := do
  Reader.char '.'
  match ← Reader.peek with
  | some c => do
    Reader.check (isDecimalDigit c || c == 'e' || c == 'E')
    return '.' :: (← Reader.takeWhile isDecimalDigit)
  | none => failure

/-- The exponent of a number. -/
def numberPower : Reader (List Char) := do
  let mark ← Reader.satisfying fun c => c == 'e' || c == 'E'
  let sign ← (return [← Reader.satisfying fun c => c == '+' || c == '-']) <|> return []
  return mark :: sign ++ (← Reader.takeSome isDecimalDigit)

/-- A number as it is written, with the datatype that its form shows. -/
def number : Reader Literal := do
  let sign ← (return [← Reader.satisfying fun c => c == '+' || c == '-']) <|> return []
  let whole ← Reader.takeWhile isDecimalDigit
  let fraction ← numberPoint <|> return []
  Reader.check (!whole.isEmpty || 1 < fraction.length)
  let next ← Reader.peek
  if next == some 'e' || next == some 'E' then
    let power ← numberPower
    return { text := String.ofList (sign ++ whole ++ fraction ++ power), datatype := some Xsd.double }
  else
    return {
      text := String.ofList (sign ++ whole ++ fraction)
      datatype := some (if fraction.isEmpty then Xsd.integer else Xsd.decimal) }

/-! ## Verbs and blank nodes -/

/-- A predicate, where a lone `a` is `rdf:type`. -/
def verb : TurtleReader StatementTerm := do
  match ← Reader.rest with
  | 'a' :: cs =>
    let goesOn := match cs.head? with
      | some c => isNameChar c || c == '.' || c == ':'
      | none => false
    if goesOn then return .term (.iri (← iri))
    else
      Reader.char 'a'
      return .term (.iri Rdf.type)
  | _ => return .term (.iri (← iri))

/-- A blank node with a label, or brackets with no statements between them. -/
def blankNode : TurtleReader StatementTerm := do
  match ← Reader.peek with
  | some '_' => return .term (.blank (keepApart (← Terminal.blankLabel)))
  | _ =>
    Reader.char '['
    gap
    Reader.char ']'
    freshNode

/-! ## Lists of objects and predicates -/

/-- Objects with commas between them. A block between bars says more about the statement itself,
which makes a quoted triple its subject. -/
def objectList (object : TurtleReader StatementTerm)
    (block : TurtleReader Unit) (subject predicate : StatementTerm) : TurtleReader Unit :=
  loop do
    let o ← object
    say subject predicate o
    gap
    if ← Reader.isNext "\x7b|" then
      block
      gap
    if (← Reader.peek) == some ',' then
      Reader.char ','
      gap
      return true
    else return false

/-- Verbs with their objects, and semicolons between them. -/
def predicateObjectList (object : TurtleReader StatementTerm) (block : TurtleReader Unit)
    (subject : StatementTerm) : TurtleReader Unit :=
  loop do
    let predicate ← verb
    gap
    objectList object block subject predicate
    gap
    let semicolons ← Reader.many (do Reader.char ';'; gap)
    if semicolons.isEmpty then return false
    match ← Reader.peek with
    | none => return false
    | some c => return !(c == '.' || c == ']' || c == '|' || c == '\x7d')

/-- The triple between double angle brackets. -/
def quotedTriple (object : TurtleReader StatementTerm) (subject : TurtleReader StatementTerm) :
    TurtleReader StatementTerm := do
  Reader.token "<<"
  gap
  let _ ← subject
  gap
  let _ ← verb
  gap
  let _ ← object
  gap
  Reader.token ">>"
  return .quotedTriple

/-- The members of a collection behind the one of `node`; the node of the last one. Each member
takes a character of `budget` or more. -/
def members (member : StatementTerm → TurtleReader Unit) (budget : List Char)
    (node : StatementTerm) : TurtleReader StatementTerm := do
  if (← Reader.peek) == some ')' then return node
  match budget with
  | [] => failure
  | _ :: budget =>
    let next ← freshNode
    say node (.term (.iri Rdf.rest)) next
    member next
    members member budget next

/-- A collection: a chain of nodes, each with a first and a rest. -/
def collection (object : TurtleReader StatementTerm) : TurtleReader StatementTerm := do
  Reader.char '('
  gap
  if (← Reader.peek) == some ')' then
    Reader.char ')'
    return .term (.iri Rdf.nil)
  let head ← freshNode
  let member (node : StatementTerm) : TurtleReader Unit := do
    let o ← object
    say node (.term (.iri Rdf.first)) o
    gap
  member head
  let back ← members member (← Reader.rest) head
  Reader.char ')'
  say back (.term (.iri Rdf.rest)) (.term (.iri Rdf.nil))
  return head

/-- A node with its own statements between brackets. -/
def propertyList (object : TurtleReader StatementTerm) (block : TurtleReader Unit) :
    TurtleReader StatementTerm := do
  Reader.char '['
  gap
  let node ← freshNode
  loop do
    predicateObjectList object block node
    gap
    return (← Reader.peek) != some ']'
  Reader.char ']'
  return node

/-- A block between bars, about a statement. -/
def annotationBlock (object : TurtleReader StatementTerm) (inner : TurtleReader Unit) :
    TurtleReader Unit := do
  Reader.token "\x7b|"
  gap
  predicateObjectList object inner .quotedTriple
  gap
  Reader.token "|\x7d"

/-- Term readers for one level of nesting. -/
structure Level where
  object : TurtleReader StatementTerm
  block : TurtleReader Unit
  quotedSubject : TurtleReader StatementTerm
  quotedObject : TurtleReader StatementTerm

/-- A literal, if one begins here. -/
def literal : TurtleReader StatementTerm := do
  match ← Reader.peek with
  | some '"' => return .term (.literal (← stringLiteral '"'))
  | some '\'' => return .term (.literal (← stringLiteral '\''))
  | some c =>
    if c == '+' || c == '-' || c == '.' || isDecimalDigit c then
      return .term (.literal (← number))
    else if ← isKeyword "true" then
      Reader.token "true"
      return .term (.literal { text := "true", datatype := some Xsd.boolean })
    else if ← isKeyword "false" then
      Reader.token "false"
      return .term (.literal { text := "false", datatype := some Xsd.boolean })
    else failure
  | none => failure

/-- The readers for terms that are nested fewer than `depth` levels. -/
def levelBelow : Nat → Level
  | 0 => ⟨failure, failure, failure, failure⟩
  | depth + 1 =>
    let inner := levelBelow depth
    let named (withLiteral : Bool) : TurtleReader StatementTerm := do
      match ← Reader.peek with
      | some '_' => blankNode
      | some '[' => blankNode
      | some '<' =>
        if ← Reader.isNext "<<" then quotedTriple inner.quotedObject inner.quotedSubject
        else return .term (.iri (← iri))
      | _ => (if withLiteral then literal else failure) <|> (return .term (.iri (← iri)))
    { object := do
        match ← Reader.peek with
        | some '(' => collection inner.object
        | some '[' =>
          if ← isEmptyBrackets then blankNode else propertyList inner.object inner.block
        | _ => named true
      block := annotationBlock inner.object inner.block
      quotedSubject := named false
      quotedObject := named true }

/-! ## Statements -/

/-- A subject with its predicates and objects, in which terms are nested up to `depth` levels. A node
with statements of its own needs no more. -/
def triples (depth : Nat) : TurtleReader Unit := do
  let level := levelBelow (depth + 1)
  let inner := levelBelow depth
  match ← Reader.peek with
  | some '[' =>
    if ← isEmptyBrackets then described level (← blankNode)
    else
      let node ← propertyList inner.object inner.block
      gap
      if (← Reader.peek) == some '.' then return ()
      predicateObjectList level.object level.block node
  | some '(' => described level (← collection inner.object)
  | _ => described level (← level.quotedSubject)
where
  /-- What is said about a subject. -/
  described (level : Level) (subject : StatementTerm) : TurtleReader Unit := do
    gap
    predicateObjectList level.object level.block subject

/-- Binds a prefix. -/
def bindPrefix : TurtleReader Unit := do
  gap
  let name ← prefixName
  gap
  let i ← bracketedIri
  modify fun state =>
    { state with prefixes := (name, i) :: state.prefixes }

/-- Sets the base. -/
def setBase : TurtleReader Unit := do
  gap
  let i ← bracketedIri
  Reader.check (isAbsoluteIri i.toList)
  modify fun state => { state with base := some i }

/-- The dot at the end of a statement. -/
def dot : Reader Unit := do
  gap
  Reader.char '.'

/-- Whether the text goes on with `word` in letters of either case, and not with a prefixed name that
begins with them. -/
def isDirective (word : String) : Reader Bool := do
  let cs ← Reader.rest
  let n := word.length
  let begins := (cs.take n).map Terminal.lowerAscii == word.toList
  return begins && (cs.drop n).head?.all fun c =>
    c.toNat < 128 && !isNameChar c && c != '.' && c != ':'

/-- A directive or a statement. -/
def statement : TurtleReader Unit := do
  if ← Reader.isNext "@prefix" then
    Reader.token "@prefix"
    bindPrefix
    dot
  else if ← Reader.isNext "@base" then
    Reader.token "@base"
    setBase
    dot
  else if ← isDirective "base" then
    let _ ← Reader.exactly 4 fun _ => true
    setBase
  else if ← isDirective "prefix" then
    let _ ← Reader.exactly 6 fun _ => true
    bindPrefix
  else
    triples Terminal.nestingLimit
    dot

/-- The statements of a document. -/
def parse (document : String) : Option (List Statement) :=
  let reading : TurtleReader Unit := do
    gap
    loop do
      if (← Reader.rest).isEmpty then return false
      statement
      gap
      return true
  match reading {} document.toList with
  | some (((), state), []) => some state.said.reverse
  | _ => none

end Turtle

end TaxonomyPress
