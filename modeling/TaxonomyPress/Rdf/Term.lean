import TaxonomyPress.Text

/-!
# Terms and triples

* `Literal` : text with at most a language or a datatype; `Literal.compare` orders by text, then
  language, then datatype;
* `Term` : an IRI, a blank node or a literal; `Term.identifier` is the text by which a node is
  known, `Term.display` the form used in messages;
* `Term.compare` : IRIs before blank nodes before literals;
* `Triple` : a fact about its subject.
-/

namespace TaxonomyPress

/-- A text value. A language and a datatype exclude each other in RDF; if both are given, the
language is the one that shows. -/
structure Literal where
  text : String
  language : Option String := none
  datatype : Option String := none
deriving DecidableEq

namespace Literal

/-- By text, then language, then datatype; an absent language or datatype comes first. -/
def compare (a b : Literal) : Ordering :=
  (compareText a.text b.text).then
    ((compareOptionalText a.language b.language).then (compareOptionalText a.datatype b.datatype))

/-- The key under which a reader of several languages files the literal: untagged text has the
empty one. -/
def languageKey (literal : Literal) : String := literal.language.getD ""

end Literal

/-- What a triple speaks about. -/
inductive Term where
  | iri (iri : String)
  | blank (label : String)
  | literal (literal : Literal)
deriving DecidableEq

namespace Term

/-- A literal without language or datatype. -/
def plain (text : String) : Term := .literal { text }

/-- The IRI of an IRI term. -/
def asIri : Term → Option String
  | iri i => some i
  | _ => none

/-- The literal of a literal term. -/
def asLiteral : Term → Option Literal
  | literal l => some l
  | _ => none

/-- IRIs and blank nodes are resources. -/
def isResource : Term → Bool
  | literal _ => false
  | _ => true

/-- Whether the term is a blank node. -/
def isBlank : Term → Bool
  | blank _ => true
  | _ => false

/-- The text by which a node is known. -/
def identifier : Term → String
  | iri i => i
  | blank label => "_:" ++ label
  | literal l => l.text

/-- The term as messages show it. Nothing is escaped. -/
def display : Term → String
  | iri i => "<" ++ i ++ ">"
  | blank label => "_:" ++ label
  | literal ⟨text, some language, _⟩ => "\"" ++ text ++ "\"@" ++ language
  | literal ⟨text, none, some datatype⟩ => "\"" ++ text ++ "\"^^<" ++ datatype ++ ">"
  | literal ⟨text, none, none⟩ => "\"" ++ text ++ "\""

/-- IRIs, then blank nodes, then literals, and by their text within each kind. -/
def compare : Term → Term → Ordering
  | iri i, iri j => compareText i j
  | iri _, _ => .lt
  | blank _, iri _ => .gt
  | blank a, blank b => compareText a b
  | blank _, literal _ => .lt
  | literal a, literal b => a.compare b
  | literal _, _ => .gt

end Term

/-- A fact: `subject` has `object` as a value of `predicate`. -/
structure Triple where
  subject : Term
  predicate : String
  object : Term
deriving DecidableEq

/-- By subject, then predicate, then object. -/
def Triple.compare (a b : Triple) : Ordering :=
  (a.subject.compare b.subject).then
    ((compareText a.predicate b.predicate).then (a.object.compare b.object))

end TaxonomyPress
