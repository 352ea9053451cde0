import TaxonomyPress.Rdf.Statement
import TaxonomyPress.Rdf.Terminals

/-!
# N-Triples

* `NTriples.statement` : one statement of full IRIs, blank nodes and literals;
* `NTriples.parse` : a document with at most one statement on a line. Only a line feed ends a line.
-/

namespace TaxonomyPress

namespace NTriples

def blanks : Reader Unit := do
  let _ ← Reader.takeWhile fun c => c == ' ' || c == '\t'

/-- What stands between a statement and the end of its line: nothing, or a comment or a carriage
return and all that follows it. -/
def lineEnd : Reader Unit := do
  match ← Reader.peek with
  | none => return ()
  | some c =>
    Reader.check (c == '#' || c == '\r' || c == '\n')
    let _ ← Reader.takeWhile (· != '\n')
    match ← Reader.peek with
    | none => return ()
    | some _ => Reader.char '\n'

/-- An IRI with a scheme. -/
def iri : Reader String := do
  match parseIri (← Terminal.iriText) with
  | some i => return i
  | none => failure

/-- A literal with an optional language or datatype. -/
def literal : Reader Literal := do
  let text ← Terminal.quotedText '"'
  blanks
  match ← Reader.peek with
  | some '@' => return { text, language := some (← Terminal.languageTag) }
  | some '^' =>
    Reader.token "^^"
    blanks
    return { text, datatype := some (← iri) }
  | _ => return { text }

/-- A term that is nested in fewer than `depth` quoted triples. A literal is no subject. -/
def termBelow : Nat → Bool → Reader StatementTerm
  | 0, _ => failure
  | depth + 1, literalAllowed => do
    match ← Reader.peek with
    | some '<' =>
      if ← Reader.isNext "<<" then
        Reader.token "<<"
        blanks
        let _ ← termBelow depth false
        blanks
        let _ ← iri
        blanks
        let _ ← termBelow depth true
        blanks
        Reader.token ">>"
        return .quotedTriple
      else return .term (.iri (← iri))
    | some '_' => return .term (.blank (← Terminal.blankLabel))
    | some '"' =>
      Reader.check literalAllowed
      return .term (.literal (← literal))
    | _ => failure

/-- A statement up to its dot. -/
def statement (depth : Nat) : Reader Statement := do
  let subject ← termBelow depth false
  blanks
  let predicate ← iri
  blanks
  let object ← termBelow depth true
  blanks
  Reader.char '.'
  return { subject, predicate := .term (.iri predicate), object }

/-- A line, which may hold a statement and a comment. -/
def line : Reader (Option Statement) := do
  blanks
  let found ←
    match ← Reader.peek with
    | none => failure
    | some '#' => pure none
    | some '\n' => pure none
    | some '\r' => pure none
    | _ => some <$> statement (Terminal.nestingLimit + 1)
  blanks
  lineEnd
  return found

/-- The statements of a document. -/
def parse (document : String) : Option (List Statement) :=
  (Reader.run (do
    let lines ← Reader.many line
    blanks
    return lines) document.toList).map fun lines => lines.filterMap id

end NTriples

end TaxonomyPress
