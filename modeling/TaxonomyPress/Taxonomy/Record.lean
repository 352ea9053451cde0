import TaxonomyPress.Taxonomy.Annotation
import TaxonomyPress.Taxonomy.Lineage

/-!
# Records: classes and properties with every walk done

* `PropertyRecord`, `Taxonomy.propertyRecord` : a property as one class sees it;
* `ClassRecord`, `Taxonomy.classRecord` : a class with its own and its inherited properties;
* `Resolution`, `Taxonomy.resolveAll` : all classes, each on its own, so that one malformed
  identifier stops no other class.
-/

namespace TaxonomyPress

structure PropertyRecord where
  canonicalId : String
  compactId : String
  title : String
  contextName : String
  ranges : List String
  restrictions : Dictionary String
  labels : Dictionary String
  comments : Dictionary String
deriving DecidableEq

structure ClassRecord where
  canonicalId : String
  compactId : String
  title : String
  parents : List String
  declaredProperties : List PropertyRecord
  inheritedProperties : List PropertyRecord
  descendantIds : List String
deriving DecidableEq

/-- A class that could not be resolved. -/
structure ClassFailure where
  iri : String
  cause : MalformedIdentifier
deriving DecidableEq

/-- The outcome for a list of classes: what succeeded and what failed, each in their order. -/
structure Resolution where
  records : List ClassRecord
  failures : List ClassFailure
deriving DecidableEq

namespace Taxonomy

variable (T : Taxonomy)

/-- The record of `p` under `scopes`. -/
def propertyRecord (p : Node) (scopes : List String) :
    Except MalformedIdentifier PropertyRecord := do
  let canonicalId ← T.canonicalId p
  let title ← T.title p
  let contextName ← T.contextName p scopes
  return {
    canonicalId
    compactId := T.compactId p
    title
    contextName
    ranges := (T.ranges p).map T.compactId
    restrictions := T.restrictions p
    labels := T.propertyLabels p scopes
    comments := T.propertyComments p scopes }

/-- The record of the class `n`. A property is declared or inherited according to its key. -/
def classRecord (n : Node) : Except MalformedIdentifier ClassRecord := do
  let declared := (T.declaredProperties n).map Node.key
  let scopes := T.classScopes n
  let records ← (T.allProperties n).mapM fun p => do
    let record ← T.propertyRecord p scopes
    return (decide (p.key ∈ declared), record)
  let canonicalId ← T.canonicalId n
  let title ← T.title n
  return {
    canonicalId
    compactId := T.compactId n
    title
    parents := (T.realParents n).map T.compactId
    declaredProperties := (records.filter (·.1)).map (·.2)
    inheritedProperties := (records.filter (!·.1)).map (·.2)
    descendantIds := sortWith compareText ((T.descendants n).map T.compactId) }

/-- The records and the failures of `nodes`. -/
def resolveEach (nodes : List Node) : Resolution :=
  nodes.foldr (fun n rest =>
    match T.classRecord n with
    | .ok record => { rest with records := record :: rest.records }
    | .error cause => { rest with failures := ⟨n.identifier, cause⟩ :: rest.failures }) ⟨[], []⟩

/-- Resolves every class of the taxonomy. -/
def resolveAll : Resolution := T.resolveEach T.classes

end Taxonomy

end TaxonomyPress
