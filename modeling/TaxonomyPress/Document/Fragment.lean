import TaxonomyPress.Document.BaseContext
import TaxonomyPress.Steps

/-!
# Ontology fragments

The fragment of a class is the part of the graph that the class owns: the facts about the class,
about the properties whose domain it is, and about the blank nodes that these reach.

* `Taxonomy.fragmentSubjects` : the subjects of a fragment, breadth first;
* `nodeObject` : one subject with its facts, grouped by predicate;
* `Taxonomy.fragment` : the document.
-/

namespace TaxonomyPress

namespace Taxonomy

variable (T : Taxonomy)

/-- The blank nodes among the values of `subject`. -/
def blankObjects (subject : Term) : List Term :=
  ((T.store.outgoing subject).map (·.object)).filter Term.isBlank

theorem exists_terms_blankObjects :
    ∃ terms : List Term, ∀ s, ∀ o ∈ T.blankObjects s, id o ∈ terms := by
  refine ⟨T.store.terms, fun s o ho => ?_⟩
  simp only [blankObjects, List.mem_filter, List.mem_map, Store.mem_outgoing] at ho
  obtain ⟨⟨t, ⟨ht, -⟩, rfl⟩, -⟩ := ho
  exact Store.object_mem_terms ht

/-- From a term to the blank nodes among its values. -/
def blankSteps : Steps Term Term := ⟨T.blankObjects, id, T.exists_terms_blankObjects⟩

/-- The terms with facts among the class, the properties whose domain it is, and the blank nodes
that chains of blank nodes lead to from those. -/
def fragmentSubjects (n : Node) : List Term :=
  (T.blankSteps.breadthFirst [] (n.term :: T.store.subjects Rdfs.domain n.term)).filter
    T.store.hasSubject

end Taxonomy

/-! ## Encoding -/

/-- The identifier of a term, as a prefixed name where it is an IRI with one. -/
def referenceText (table : NamespaceTable) : Term → String
  | .iri i => table.shorten i
  | other => other.identifier

/-- The value of a fact. -/
def valueObject (table : NamespaceTable) : Term → Json
  | .literal ⟨text, some language, _⟩ =>
    .ofEntries [("@value", .string text), ("@language", .string language)]
  | .literal ⟨text, none, some datatype⟩ =>
    .ofEntries [("@value", .string text), ("@type", .string (table.shorten datatype))]
  | .literal ⟨text, none, none⟩ => .ofEntries [("@value", .string text)]
  | resource => .ofEntries [("@id", .string (referenceText table resource))]

/-- The key and the value that encode a fact. A type that is an IRI is a `@type`. -/
def encodeFact (table : NamespaceTable) (t : Triple) : String × Json :=
  if t.predicate = Rdf.type ∧ t.object.asIri.isSome then
    ("@type", .string (referenceText table t.object))
  else (table.shorten t.predicate, valueObject table t.object)

/-- The values of each key, in their order. -/
def groupByKey (facts : List (String × Json)) : Dictionary (List Json) :=
  facts.foldl (fun groups (key, value) =>
    groups.insert key ((groups.get? key).getD [] ++ [value])) []

/-- A subject with its facts. The values of a key that is `@id` itself give way to the identifier. -/
def nodeObject (table : NamespaceTable) (subject : Term) (facts : List Triple) : Json :=
  .ofDictionary (((groupByKey (facts.map (encodeFact table))).mapValues .array).insert
    "@id" (.string (referenceText table subject)))

/-- The fragment of the class `n`. -/
def Taxonomy.fragment (T : Taxonomy) (settings : Settings) (n : Node) : Json :=
  .ofEntries
    [("@context", ontologyContext settings T.namespaces),
     ("@graph", .array ((T.fragmentSubjects n).map fun subject =>
       nodeObject T.namespaces subject (T.store.outgoing subject)))]

end TaxonomyPress
