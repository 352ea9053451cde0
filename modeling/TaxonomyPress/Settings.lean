import TaxonomyPress.Dictionary
import TaxonomyPress.Distinct
import TaxonomyPress.Namespaces
import TaxonomyPress.Taxonomy.Lineage

/-!
# Settings

* `Settings` : what a run can choose, with the defaults of a run without settings;
* `Settings.namespaceTable` : the standard namespaces and the chosen ones, bound by prefix;
* `Settings.excludes`, `Settings.flattens` : whether a list of the settings names a class.
-/

namespace TaxonomyPress

/-- A set of names, in order. -/
def nameSet (names : List String) : List String := sortWith compareText (distinct names)

structure Settings where
  /-- Classes whose attributes map straight to identifiers. -/
  flatDefinitionClasses : List String := []
  /-- Classes without identity and definition documents. -/
  excludedClasses : List String := []
  /-- Bindings on top of the standard ones. -/
  namespaces : Dictionary String := []
  /-- The URL that all documents lie under. -/
  baseUrl : String := "https://standards.oftrust.net/v1/"
  /-- The version that contexts declare. -/
  version : String := "1.1"
deriving DecidableEq

namespace Settings

def namespaceTable (settings : Settings) : NamespaceTable :=
  NamespaceTable.standard.bindAll settings.namespaces

/-- Whether the settings leave `n` without identity and definition. -/
def excludes (settings : Settings) (T : Taxonomy) (n : Node) : Bool :=
  T.isNamedIn settings.excludedClasses n

/-- Whether the attributes of `n` map straight to identifiers. -/
def flattens (settings : Settings) (T : Taxonomy) (n : Node) : Bool :=
  T.isNamedIn settings.flatDefinitionClasses n

end Settings

end TaxonomyPress
