import TaxonomyPress.Rdf.Names
import TaxonomyPress.Rdf.Store

/-!
# Statements of a document and the store they make

* `StatementTerm`, `Statement` : what a document can say, which is more than a store can hold;
* `StatementStream` : the statements that a reader delivers, and the fault that it ends at if the
  document has one;
* `Format`, `LoadError` : the three formats, and why a document cannot be loaded;
* `Collector` : takes statements one after the other, up to the first that no triple represents;
* `collect` : the store of a stream. A fault of the document counts before a statement that no
  triple represents.
-/

namespace TaxonomyPress

/-- A term of a statement: one of the model, or a triple or a variable in the place of a term. -/
inductive StatementTerm where
  | term (term : Term)
  | quotedTriple
  | queryVariable (name : String)
deriving DecidableEq

/-- What a document says. Where a format names graphs, `graph` is the name of the one that says it. -/
structure Statement where
  subject : StatementTerm
  predicate : StatementTerm
  object : StatementTerm
  graph : Option StatementTerm := none
deriving DecidableEq

/-- What a reader says about the place where a document breaks its format, if it says anything. -/
structure SyntaxFault where
  text : Option String := none
deriving DecidableEq

/-- The statements that a reader delivers before it comes to the end of the document or to a fault of
it. -/
structure StatementStream where
  statements : List Statement
  fault : Option SyntaxFault := none

/-- The outcome of a reader that delivers all statements at the end, or nothing. -/
def StatementStream.ofReading : Option (List Statement) → StatementStream
  | some statements => { statements }
  | none => { statements := [], fault := some {} }

/-! ## Errors -/

inductive Format where
  | turtle
  | nTriples
  | jsonLd
deriving DecidableEq

def Format.name : Format → String
  | turtle => "turtle"
  | nTriples => "ntriples"
  | jsonLd => "jsonld"

inductive LoadFault where
  | syntaxError (fault : SyntaxFault)
  | predicateNotIri
  | unsupportedTerm (kind : String)
deriving DecidableEq

/-- What there is to say about a fault. -/
def LoadFault.text : LoadFault → Option String
  | syntaxError fault => fault.text
  | predicateNotIri => some "predicate is not an IRI"
  | unsupportedTerm kind => some ("unsupported term kind " ++ kind)

/-- Why a document of a format cannot be loaded. -/
structure LoadError where
  format : Format
  fault : LoadFault
deriving DecidableEq

def LoadError.message (e : LoadError) : String :=
  "failed to parse " ++ e.format.name ++ " input" ++
    match e.fault.text with
    | some text => ": " ++ text
    | none => ""

/-! ## From statements to triples -/

/-- Datatypes that say no more than that a literal is a string. -/
def stringDatatypes : List String := [Xsd.string, Rdf.langString]

/-- A literal without a datatype that says nothing. Beside a language none says anything. -/
def Literal.withoutStringDatatype (l : Literal) : Literal :=
  match l.language, l.datatype with
  | some _, _ => { l with datatype := none }
  | none, some datatype => if datatype ∈ stringDatatypes then { l with datatype := none } else l
  | none, none => l

/-- The term of the model. -/
def StatementTerm.toTerm : StatementTerm → Except LoadFault Term
  | term (.literal l) => .ok (.literal l.withoutStringDatatype)
  | term t => .ok t
  | quotedTriple => .error (.unsupportedTerm "Triple")
  | queryVariable _ => .error (.unsupportedTerm "Variable")

/-- The IRI of a predicate. -/
def StatementTerm.toPredicate : StatementTerm → Except LoadFault String
  | term (.iri i) => .ok i
  | _ => .error .predicateNotIri

/-- The triple of a statement, whichever graph says it. -/
def Statement.toTriple (s : Statement) : Except LoadFault Triple := do
  let predicate ← s.predicate.toPredicate
  let subject ← s.subject.toTerm
  let object ← s.object.toTerm
  return ⟨subject, predicate, object⟩

/-! ## Collecting -/

/-- The triples of the statements so far, and why the first of them that is no triple is none. -/
structure Collector where
  store : Store := .empty
  fault : Option LoadFault := none

namespace Collector

/-- Takes one statement more. Behind a fault nothing is taken. -/
def add (c : Collector) (s : Statement) : Collector :=
  match c.fault with
  | some _ => c
  | none =>
    match s.toTriple with
    | .ok t => { c with store := c.store.insert t }
    | .error fault => { c with fault := some fault }

/-- The store, if all statements were taken. -/
def finish (format : Format) (c : Collector) : Except LoadError Store :=
  match c.fault with
  | some fault => .error ⟨format, fault⟩
  | none => .ok c.store

end Collector

/-- The store of a stream of statements. The reader goes on to the end, or to its fault, also behind a
statement that is not taken. -/
def collect (format : Format) (stream : StatementStream) : Except LoadError Store :=
  let collector : Collector := stream.statements.foldl Collector.add {}
  match stream.fault with
  | some fault => .error ⟨format, .syntaxError fault⟩
  | none => collector.finish format

end TaxonomyPress
