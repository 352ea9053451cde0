import TaxonomyPress.Document.Vocabulary

/-!
# Class definition documents

A definition points at the identity of its class, repeats the description of the class, and lists
the attributes with their keys, those declared on the class first.

* `definitionAttribute` : one attribute;
* `Definition`, `Taxonomy.definition`, `Definition.toJson` : the document.
-/

namespace TaxonomyPress

/-- What a definition says about a property. -/
def definitionAttribute (record : PropertyRecord) : Json :=
  .ofEntries (("@id", .string record.canonicalId)
    :: ("pot:contextName", .string record.contextName)
    :: languageMember "rdfs:label" record.labels
    ++ languageMember "rdfs:comment" record.comments
    ++ listMember "range" record.ranges
    ++ textsMember "pot:restriction" record.restrictions)

structure Definition where
  contextUrl : String
  id : String
  entry : ClassEntry
  attributes : List PropertyRecord

def Definition.toJson (definition : Definition) : Json :=
  .ofEntries
    ([("@context", .string definition.contextUrl),
      ("@id", .string definition.id),
      ("@type", .string "pot:ClassDefinition")]
    ++ definition.entry.description
    ++ [("pot:supportedAttribute", .array (definition.attributes.map definitionAttribute))])

/-- The definition of the class `n`. -/
def Taxonomy.definition (T : Taxonomy) (settings : Settings) (n : Node) :
    Except MalformedIdentifier Definition := do
  let record ← T.classRecord n
  let lineage := canonicalLineage record.canonicalId
  return {
    contextUrl := documentUrl settings.baseUrl .context lineage ++ ".jsonld"
    id := documentUrl settings.baseUrl .classDefinitions lineage
    entry := T.classEntry n
    attributes := record.declaredProperties ++ record.inheritedProperties }

end TaxonomyPress
