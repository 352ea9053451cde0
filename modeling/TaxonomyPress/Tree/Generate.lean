import TaxonomyPress.Document.Build
import TaxonomyPress.Json.Printer
import TaxonomyPress.Tree.FileTree

/-!
# Writing the documents of a taxonomy

* `documentText` : the text of a document, as a printer prints its body;
* `FileTree.writeDocuments` : writes documents below a directory, up to the first that fails;
* `GenerationReport`, `Taxonomy.generate` : builds and writes everything, and says what was written.
-/

namespace TaxonomyPress

/-- The printed body, with a line break at its end. -/
def documentText (print : Json → String) (body : Json) : String := print body ++ "\n"

/-- Writes each document at its path below `out`; the number of documents. Bodies are printed over
several lines. -/
def FileTree.writeDocuments (tree : FileTree) (out : UnixPath) (documents : List Document)
    (print : Json → String := Json.pretty) : FileTree × Except FileError Nat :=
  let (written, outcome) := tree.writeTexts (documents.map fun document =>
    (out.join document.path, documentText print document.body))
  (written, outcome.map fun _ => documents.length)

structure GenerationReport where
  classCount : Nat
  propertyCount : Nat
  vocabularyCount : Nat
  identityCount : Nat
  definitionCount : Nat
  indexCount : Nat
  ontologyCount : Nat
  documentsWritten : Nat
  failures : List ClassFailure

/-- Writes the documents of `T` below `out`. -/
def Taxonomy.generate (T : Taxonomy) (settings : Settings) (tree : FileTree) (out : UnixPath)
    (print : Json → String := Json.pretty) : FileTree × Except FileError GenerationReport :=
  let set := T.build settings
  let (written, outcome) := tree.writeDocuments out set.documents print
  (written, outcome.map fun documentsWritten =>
    { classCount := T.classes.length
      propertyCount := T.properties.length
      vocabularyCount := set.count .vocabulary
      identityCount := set.count .identity
      definitionCount := set.count .definition
      indexCount := set.count .index
      ontologyCount := set.count .ontology
      documentsWritten
      failures := set.failures })

end TaxonomyPress
