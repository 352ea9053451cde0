import TaxonomyPress.Tree.UnixPath

/-!
# Layout of the published tree

A lineage is a list of titles, root first. Every lineage of a class has its own copy of each
document.

* `Section` : the four top directories;
* `documentPath`, `indexPath` : where a document and the index of a lineage lie;
* `documentUrl` : the public address of a document, without file extension;
* `canonicalLineage` : the titles that a canonical identifier writes.
-/

namespace TaxonomyPress

/-- The top directories of the tree. -/
inductive Section where
  | vocabulary
  | context
  | classDefinitions
  | ontology
deriving DecidableEq

def Section.directory : Section → String
  | vocabulary => "Vocabulary"
  | context => "Context"
  | classDefinitions => "ClassDefinitions"
  | ontology => "Ontology"

/-- A root-to-class list of titles. -/
abbrev Lineage := List String

/-- `Section/A/B.jsonld` for the lineage `A`, `B`; the directory alone for the empty one. -/
def documentPath (area : Section) (lineage : Lineage) : UnixPath :=
  match lineage.getLast? with
  | none => ⟨area.directory⟩
  | some title => (lineage.dropLast.foldl UnixPath.push ⟨area.directory⟩).push (title ++ ".jsonld")

/-- `Vocabulary/A/B/index.jsonld` for the lineage `A`, `B`. -/
def indexPath (lineage : Lineage) : UnixPath :=
  (lineage.foldl UnixPath.push ⟨Section.vocabulary.directory⟩).push "index.jsonld"

/-- The index of the root classes. -/
def rootIndexPath : UnixPath := indexPath []

/-- The address of a document below `baseUrl`, whose trailing slashes do not count. -/
def documentUrl (baseUrl : String) (area : Section) (lineage : Lineage) : String :=
  Text.trimEnd (· == '/') baseUrl ++ "/" ++ area.directory ++ "/" ++ Text.join "/" lineage

/-- The titles behind the prefix of a canonical identifier. -/
def canonicalLineage (canonicalId : String) : Lineage :=
  match Text.cutAtFirst ':' canonicalId with
  | some (_, path) => Text.segments '/' path
  | none => Text.segments '/' canonicalId

end TaxonomyPress
