import TaxonomyPress.Document.BaseContext
import TaxonomyPress.Document.Layout
import TaxonomyPress.Taxonomy.Lineage

/-!
# Index documents

* `IndexMember` : an identifier and the address of its vocabulary;
* `rootIndex` : the index of the root classes;
* `Taxonomy.classIndex` : the index of the children of a class under one of its lineages.
-/

namespace TaxonomyPress

structure IndexMember where
  id : String
  url : String
deriving DecidableEq

def IndexMember.toJson (entry : IndexMember) : Json :=
  .ofEntries [("@id", .string entry.id), ("url", .string entry.url)]

/-- An index, which has a class unless it is that of the roots. -/
structure Index where
  context : Json
  id : String
  owner : Option String
  members : List IndexMember

def Index.toJson (index : Index) : Json :=
  .ofEntries
    ([("@context", index.context),
      ("@id", .string index.id),
      ("@type", .string "pot:Index"),
      ("pot:member", .array (index.members.map IndexMember.toJson))]
    ++ match index.owner with
      | none => []
      | some id => [("pot:class", .string id)])

/-- The index of root classes, given by compact identifier and title. -/
def rootIndex (settings : Settings) (table : NamespaceTable) (roots : List (String × String)) :
    Index :=
  let id := documentUrl settings.baseUrl .vocabulary []
  { context := vocabularyContext settings table id
    id
    owner := none
    members := roots.map fun (compactId, title) =>
      ⟨compactId, documentUrl settings.baseUrl .vocabulary [title]⟩ }

namespace Taxonomy

variable (T : Taxonomy)

/-- The member for a child under `lineage`; none for a child without title. -/
def indexMember (settings : Settings) (lineage : Lineage) (child : Node) : Option IndexMember :=
  match T.title child with
  | .ok title =>
    some ⟨T.compactId child, documentUrl settings.baseUrl .vocabulary (lineage ++ [title])⟩
  | .error _ => none

/-- The index of the children of `n` under `lineage`. -/
def classIndex (settings : Settings) (n : Node) (lineage : Lineage) : Index :=
  let id := documentUrl settings.baseUrl .vocabulary lineage ++ "/"
  { context := vocabularyContext settings T.namespaces id
    id
    owner := some (T.compactId n)
    members := (T.children n).filterMap (T.indexMember settings lineage) }

end Taxonomy

end TaxonomyPress
