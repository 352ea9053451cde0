import TaxonomyPress.JsonLd.Statements
import TaxonomyPress.Rdf.NTriples
import TaxonomyPress.Rdf.Turtle
import TaxonomyPress.Tree.UnixPath

/-!
# Loading a graph

* `Format.ofPath` : the format that a file extension stands for;
* `readStatements` : the statements of a document;
* `loadWith`, `load` : the store of a document, by any reader and by these.
-/

namespace TaxonomyPress

/-- The format that the extension of a path stands for. -/
def Format.ofPath (path : UnixPath) : Option Format := do
  let ending ← path.extension
  if ending = "ttl" ∨ ending = "turtle" then some .turtle
  else if ending = "nt" ∨ ending = "ntriples" then some .nTriples
  else if ending = "jsonld" ∨ ending = "json" then some .jsonLd
  else none

/-- The format with the given name. -/
def Format.ofName (name : String) : Option Format :=
  [Format.turtle, .nTriples, .jsonLd].find? (·.name = name)

/-- The statements of a document in a format. -/
def readStatements (format : Format) (document : String) : StatementStream :=
  .ofReading (match format with
    | .turtle => Turtle.parse document
    | .nTriples => NTriples.parse document
    | .jsonLd => JsonLd.parse document)

/-- The graph that a document holds as `read` reads it. -/
def loadWith (read : Format → String → StatementStream) (format : Format) (document : String) :
    Except LoadError Store :=
  collect format (read format document)

/-- The graph that a document holds. -/
def load (format : Format) (document : String) : Except LoadError Store :=
  loadWith readStatements format document

end TaxonomyPress
