import TaxonomyPress.Document.BaseContext
import TaxonomyPress.Document.Layout
import TaxonomyPress.Taxonomy.Record

/-!
# Vocabulary documents

A vocabulary describes a class with all its descendants and all its properties.

* `ClassEntry`, `Taxonomy.classEntry` : the description of one class;
* `AttributeEntry`, `Taxonomy.attributeEntry` : the description of one property for a class;
* `Vocabulary`, `Taxonomy.vocabulary`, `Vocabulary.toJson` : the document.
-/

namespace TaxonomyPress

/-! ## Shared members -/

/-- The member `key` with a list of texts and their languages, if there are any. The untagged text
has no language member. -/
def languageMember (key : String) (texts : Dictionary String) : List (String × Json) :=
  if texts.isEmpty then []
  else
    [(key, .array (texts.map fun (language, text) =>
      if language = "" then .ofEntries [("@value", .string text)]
      else .ofEntries [("@language", .string language), ("@value", .string text)]))]

/-- The member `key` with a list of strings, if there are any. -/
def listMember (key : String) (items : List String) : List (String × Json) :=
  if items.isEmpty then [] else [(key, .strings items)]

/-- The member `key` with a string for one item and a list for several. -/
def oneOrManyMember (key : String) : List String → List (String × Json)
  | [] => []
  | [item] => [(key, .string item)]
  | items => [(key, .strings items)]

/-- The member `key` with an object of strings, if it has any. -/
def textsMember (key : String) (texts : Dictionary String) : List (String × Json) :=
  if texts.isEmpty then [] else [(key, .ofTexts texts)]

/-- The member `key` with a string, if there is one. -/
def textMember (key : String) : Option String → List (String × Json)
  | none => []
  | some text => [(key, .string text)]

/-! ## Entries -/

/-- What a document says about a class. -/
structure ClassEntry where
  id : String
  type : String
  parents : List String
  labels : Dictionary String
  comments : Dictionary String
  versionInfo : Option String
  termStatus : Option String
deriving DecidableEq

namespace ClassEntry

/-- The members other than identifier and type. -/
def description (entry : ClassEntry) : List (String × Json) :=
  oneOrManyMember "rdfs:subClassOf" entry.parents
    ++ languageMember "rdfs:label" entry.labels
    ++ languageMember "rdfs:comment" entry.comments
    ++ textMember "owl:versionInfo" entry.versionInfo
    ++ textMember "vs:term_status" entry.termStatus

def toJson (entry : ClassEntry) : Json :=
  .ofEntries (("@id", .string entry.id) :: ("@type", .string entry.type) :: entry.description)

end ClassEntry

/-- What a vocabulary says about a property. -/
structure AttributeEntry where
  id : String
  type : String
  labels : Dictionary String
  comments : Dictionary String
  domains : List String
  ranges : List String
  restrictions : Dictionary String
  versionInfo : Option String
  termStatus : Option String
deriving DecidableEq

def AttributeEntry.toJson (entry : AttributeEntry) : Json :=
  .ofEntries (("@id", .string entry.id) :: ("@type", .string entry.type)
    :: languageMember "rdfs:label" entry.labels
    ++ languageMember "rdfs:comment" entry.comments
    ++ listMember "domain" entry.domains
    ++ listMember "range" entry.ranges
    ++ textsMember "pot:restriction" entry.restrictions
    ++ textMember "owl:versionInfo" entry.versionInfo
    ++ textMember "vs:term_status" entry.termStatus)

namespace Taxonomy

variable (T : Taxonomy)

/-- The description of the class `n`. A class without a type that is an IRI is a `pot:Class`. -/
def classEntry (n : Node) : ClassEntry :=
  { id := T.compactId n
    type := (T.typeIds n).headD "pot:Class"
    parents := (T.realParents n).map T.compactId
    labels := T.labels n
    comments := T.comments n
    versionInfo := T.versionInfo n
    termStatus := T.termStatus n }

/-- The description of the property `p` under `scopes`. -/
def attributeEntry (scopes : List String) (p : Node) : Except MalformedIdentifier AttributeEntry := do
  let record ← T.propertyRecord p scopes
  return {
    id := record.compactId
    type := (T.typeIds p).headD "rdf:Property"
    labels := record.labels
    comments := record.comments
    domains := (T.domains p).map T.compactId
    ranges := record.ranges
    restrictions := record.restrictions
    versionInfo := T.versionInfo p
    termStatus := T.termStatus p }

end Taxonomy

/-! ## The document -/

structure Vocabulary where
  context : Json
  id : String
  classes : List ClassEntry
  attributes : List AttributeEntry

def Vocabulary.toJson (vocabulary : Vocabulary) : Json :=
  .ofEntries
    [("@context", vocabulary.context),
     ("@id", .string vocabulary.id),
     ("@type", .string "pot:Vocabulary"),
     ("pot:supportedClass", .array (vocabulary.classes.map ClassEntry.toJson)),
     ("pot:supportedAttribute", .array (vocabulary.attributes.map AttributeEntry.toJson))]

/-- The vocabulary of the class `n`: the class, its descendants and all its properties. -/
def Taxonomy.vocabulary (T : Taxonomy) (settings : Settings) (n : Node) :
    Except MalformedIdentifier Vocabulary := do
  let lineage := canonicalLineage (← T.canonicalId n)
  let id := documentUrl settings.baseUrl .vocabulary lineage
  let attributes ← (T.allProperties n).mapM (T.attributeEntry (T.classScopes n))
  return {
    context := vocabularyContext settings T.namespaces (id ++ "#")
    id
    classes := (n :: T.descendants n).map T.classEntry
    attributes }

end TaxonomyPress
