import TaxonomyPress.Document.BaseContext
import TaxonomyPress.Document.Layout
import TaxonomyPress.Taxonomy.Record

/-!
# Identity documents

An identity is a context that maps the attribute keys of a class to properties.

* `AttributeMapping` : how a key maps to the canonical identifier of its property: straight, or
  nested under `data`;
* `Identity`, `Taxonomy.identity`, `Identity.toJson` : the document. A later attribute takes the
  place of an earlier entry with its key.
-/

namespace TaxonomyPress

/-- What an attribute key stands for. -/
inductive AttributeMapping where
  | flat (id : String)
  | nested (id : String)
  | nestedReference (id : String)
deriving DecidableEq

namespace AttributeMapping

/-- The canonical identifier of the property. -/
def id : AttributeMapping → String
  | flat id => id
  | nested id => id
  | nestedReference id => id

def toJson : AttributeMapping → Json
  | flat id => .string id
  | nested id => .ofEntries [("@id", .string id), ("@nest", .string "data")]
  | nestedReference id =>
    .ofEntries [("@id", .string id), ("@nest", .string "data"), ("@type", .string "@id")]

end AttributeMapping

/-- The base entries and the attributes, in the order of the properties. -/
structure Identity where
  base : Dictionary Json
  attributes : List (String × AttributeMapping)

namespace Identity

/-- The entries of the context. -/
def context (identity : Identity) : Dictionary Json :=
  identity.base.insertAll (identity.attributes.map fun (key, mapping) => (key, mapping.toJson))

def toJson (identity : Identity) : Json :=
  .ofEntries [("@context", .ofDictionary identity.context)]

end Identity

namespace Taxonomy

variable (T : Taxonomy)

/-- The key of the property `p` under `scopes`, and what it stands for. -/
def attributeMapping (flat : Bool) (scopes : List String) (p : Node) :
    Except MalformedIdentifier (String × AttributeMapping) := do
  let key ← T.contextName p scopes
  let id ← T.canonicalId p
  return (key, if flat then .flat id else if T.hasObjectRange p then .nestedReference id else .nested id)

/-- The identity of the class `n`. -/
def identity (settings : Settings) (n : Node) : Except MalformedIdentifier Identity := do
  let lineage := canonicalLineage (← T.canonicalId n)
  let vocab := documentUrl settings.baseUrl .vocabulary lineage ++ "#"
  let attributes ← (T.allProperties n).mapM 
    (T.attributeMapping (settings.flattens T n) (T.classScopes n))
  return { base := identityContext settings T.namespaces vocab, attributes }

end Taxonomy

end TaxonomyPress
