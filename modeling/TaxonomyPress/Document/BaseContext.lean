import TaxonomyPress.Json
import TaxonomyPress.Settings

/-!
# Base contexts of the published documents

* `versionValue` : the configured version, as a number if it is one;
* `vocabularyContext` : the prefixes of vocabularies and indexes, and the place of their terms;
* `identityContext` : the entries that every identity starts from;
* `ontologyContext` : every bound prefix.
-/

namespace TaxonomyPress

/-- The version that contexts declare: a double if the text is a finite one, else the text. -/
def versionValue (settings : Settings) : Json :=
  match (Decimal.ofText? settings.version).bind Decimal.nearest with
  | some x => .double x
  | none => .string settings.version

/-- The declaration of a prefix; `standard` stands in for a prefix without binding. -/
def prefixDeclaration (table : NamespaceTable) (name standard : String) : Json :=
  .ofEntries [("@id", .string ((table.iriFor name).getD standard)), ("@prefix", .boolean true)]

/-- The context of documents whose terms live under `vocab`. -/
def vocabularyContext (settings : Settings) (table : NamespaceTable) (vocab : String) : Json :=
  .ofEntries
    [("@version", versionValue settings),
     ("rdf", prefixDeclaration table "rdf" Rdf.namespaceIri),
     ("rdfs", prefixDeclaration table "rdfs" Rdfs.namespaceIri),
     ("owl", prefixDeclaration table "owl" Owl.namespaceIri),
     ("vs", prefixDeclaration table "vs" Vs.namespaceIri),
     ("xsd", prefixDeclaration table "xsd" Xsd.namespaceIri),
     ("dli", prefixDeclaration table "dli" Dli.namespaceIri),
     ("pot", prefixDeclaration table "pot" Pot.namespaceIri),
     ("vocab", .string vocab)]

/-- The entries of an identity context before the attributes. -/
def identityContext (settings : Settings) (table : NamespaceTable) (vocab : String) :
    Dictionary Json :=
  .ofList
    [("@version", versionValue settings),
     ("@vocab", .string vocab),
     ("pot", prefixDeclaration table "pot" Pot.namespaceIri),
     ("dli", prefixDeclaration table "dli" Dli.namespaceIri),
     ("data", .string "dli:data")]

/-- The context of an ontology fragment. A prefix may take the place of the version. -/
def ontologyContext (settings : Settings) (table : NamespaceTable) : Json :=
  .ofEntries (("@version", versionValue settings) ::
    table.bindings.map fun (name, iri) => (name, .string iri))

end TaxonomyPress
