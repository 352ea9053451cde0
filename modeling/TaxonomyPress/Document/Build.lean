import TaxonomyPress.Document.Definition
import TaxonomyPress.Document.Fragment
import TaxonomyPress.Document.Identity
import TaxonomyPress.Document.Index

/-!
# All documents of a taxonomy

* `Document` : a kind, a path below the output directory and a body;
* `Taxonomy.classDocuments` : the documents of one class, or why it has none;
* `DocumentSet`, `Taxonomy.build` : the documents of every class that succeeds, the failures of the
  others, and the root index at the end;
* `DocumentSet.count` : how many documents are of a kind.
-/

namespace TaxonomyPress

inductive DocumentKind where
  | vocabulary
  | identity
  | definition
  | index
  | ontology
deriving DecidableEq

structure Document where
  kind : DocumentKind
  path : UnixPath
  body : Json

/-- What was built and which classes failed, each in class order. -/
structure DocumentSet where
  documents : List Document
  failures : List ClassFailure

def DocumentSet.count (set : DocumentSet) (kind : DocumentKind) : Nat :=
  set.documents.countP (·.kind = kind)

/-- The bodies that all lineages of a class share. An excluded class has neither identity nor
definition. -/
structure ClassBodies where
  vocabulary : Vocabulary
  identity : Option Identity
  definition : Option Definition

namespace Taxonomy

variable (T : Taxonomy)

/-- The shared bodies of the class `n`. -/
def classBodies (settings : Settings) (n : Node) : Except MalformedIdentifier ClassBodies := do
  let vocabulary ← T.vocabulary settings n
  if settings.excludes T n then return { vocabulary, identity := none, definition := none }
  let identity ← T.identity settings n
  let definition ← T.definition settings n
  return { vocabulary, identity := some identity, definition := some definition }

/-- The documents of the class `n` under one of its lineages. -/
def lineageDocuments (settings : Settings) (n : Node) (bodies : ClassBodies) (lineage : Lineage) :
    List Document :=
  [⟨.vocabulary, documentPath .vocabulary lineage, bodies.vocabulary.toJson⟩]
    ++ (bodies.identity.map fun identity =>
        ⟨.identity, documentPath .context lineage, identity.toJson⟩).toList
    ++ (bodies.definition.map fun definition =>
        ⟨.definition, documentPath .classDefinitions lineage, definition.toJson⟩).toList
    ++ (if T.hasChildren n then
        [⟨.index, indexPath lineage, (T.classIndex settings n lineage).toJson⟩]
      else [])

/-- The documents of the class `n`: those of each lineage and one ontology fragment. -/
def classDocuments (settings : Settings) (n : Node) :
    Except MalformedIdentifier (List Document) := do
  let lineages ← T.lineages n
  let bodies ← T.classBodies settings n
  let canonicalId ← T.canonicalId n
  let fragment : Document :=
    ⟨.ontology, documentPath .ontology (canonicalLineage canonicalId),
      T.fragment settings n⟩
  return lineages.flatMap (T.lineageDocuments settings n bodies) ++ [fragment]

/-- What building one class comes to. -/
structure ClassOutcome where
  node : Node
  result : Except MalformedIdentifier (List Document)

def ClassOutcome.documents (outcome : ClassOutcome) : List Document :=
  match outcome.result with
  | .ok documents => documents
  | .error _ => []

def ClassOutcome.failure? (outcome : ClassOutcome) : Option ClassFailure :=
  match outcome.result with
  | .ok _ => none
  | .error cause => some ⟨outcome.node.identifier, cause⟩

/-- The entry in the root index of a class that was built and has no real parent. -/
def rootEntry? (outcome : ClassOutcome) : Option (String × String) :=
  match outcome.result, T.realParents outcome.node, T.title outcome.node with
  | .ok _, [], .ok title => some (T.compactId outcome.node, title)
  | _, _, _ => none

/-- Pairs of texts by their first and then by their second member. -/
def compareEntries (a b : String × String) : Ordering :=
  (compareText a.1 b.1).then (compareText a.2 b.2)

/-- Builds every class on its own, and the root index. -/
def build (settings : Settings) : DocumentSet :=
  let outcomes := T.classes.map fun n => (⟨n, T.classDocuments settings n⟩ : ClassOutcome)
  let roots := sortWith compareEntries (distinct (outcomes.filterMap T.rootEntry?))
  { documents := outcomes.flatMap ClassOutcome.documents ++
      [⟨.index, rootIndexPath, (rootIndex settings T.namespaces roots).toJson⟩]
    failures := outcomes.filterMap ClassOutcome.failure? }

end Taxonomy

end TaxonomyPress
