/-!
# Well-known IRIs

One namespace for each vocabulary: `Rdf`, `Rdfs`, `Owl`, `Xsd`, `Vs` are those of the W3C, `Pot` and
`Dli` the ones that the published documents add.

* `classTypes` : the types that make a subject a class;
* `restrictionPredicates` : the facets that restrict the values of a property.
-/

namespace TaxonomyPress

namespace Rdf

def namespaceIri : String := "http://www.w3.org/1999/02/22-rdf-syntax-ns#"
def type : String := "http://www.w3.org/1999/02/22-rdf-syntax-ns#type"
def value : String := "http://www.w3.org/1999/02/22-rdf-syntax-ns#value"
def first : String := "http://www.w3.org/1999/02/22-rdf-syntax-ns#first"
def rest : String := "http://www.w3.org/1999/02/22-rdf-syntax-ns#rest"
def nil : String := "http://www.w3.org/1999/02/22-rdf-syntax-ns#nil"
def langString : String := "http://www.w3.org/1999/02/22-rdf-syntax-ns#langString"
def json : String := "http://www.w3.org/1999/02/22-rdf-syntax-ns#JSON"

end Rdf

namespace Rdfs

def namespaceIri : String := "http://www.w3.org/2000/01/rdf-schema#"
def classType : String := "http://www.w3.org/2000/01/rdf-schema#Class"
def subClassOf : String := "http://www.w3.org/2000/01/rdf-schema#subClassOf"
def subPropertyOf : String := "http://www.w3.org/2000/01/rdf-schema#subPropertyOf"
def domain : String := "http://www.w3.org/2000/01/rdf-schema#domain"
def range : String := "http://www.w3.org/2000/01/rdf-schema#range"
def label : String := "http://www.w3.org/2000/01/rdf-schema#label"
def comment : String := "http://www.w3.org/2000/01/rdf-schema#comment"

end Rdfs

namespace Owl

def namespaceIri : String := "http://www.w3.org/2002/07/owl#"
def classType : String := "http://www.w3.org/2002/07/owl#Class"
def versionInfo : String := "http://www.w3.org/2002/07/owl#versionInfo"

end Owl

namespace Xsd

def namespaceIri : String := "http://www.w3.org/2001/XMLSchema#"
def string : String := "http://www.w3.org/2001/XMLSchema#string"
def boolean : String := "http://www.w3.org/2001/XMLSchema#boolean"
def integer : String := "http://www.w3.org/2001/XMLSchema#integer"
def decimal : String := "http://www.w3.org/2001/XMLSchema#decimal"
def double : String := "http://www.w3.org/2001/XMLSchema#double"

end Xsd

namespace Vs

def namespaceIri : String := "http://www.w3.org/2003/06/sw-vocab-status/ns#"
def termStatus : String := "http://www.w3.org/2003/06/sw-vocab-status/ns#term_status"

end Vs

namespace Pot

def namespaceIri : String := "https://standards.oftrust.net/ontologies/pot.jsonld#"
def classType : String := "https://standards.oftrust.net/ontologies/pot.jsonld#Class"
def scope : String := "https://standards.oftrust.net/ontologies/pot.jsonld#scope"
def contextName : String := "https://standards.oftrust.net/ontologies/pot.jsonld#contextName"
def restriction : String := "https://standards.oftrust.net/ontologies/pot.jsonld#restriction"

end Pot

namespace Dli

def namespaceIri : String := "https://digitalliving.github.io/standards/ontologies/dli.jsonld#"
def classType : String := "https://digitalliving.github.io/standards/ontologies/dli.jsonld#Class"

end Dli

/-- A subject with one of these types is a class. -/
def classTypes : List String := [Pot.classType, Dli.classType, Rdfs.classType, Owl.classType]

/-- The predicates whose literal values restrict a property. -/
def restrictionPredicates : List String :=
  ["http://www.w3.org/2001/XMLSchema#length",
   "http://www.w3.org/2001/XMLSchema#minLength",
   "http://www.w3.org/2001/XMLSchema#maxLength",
   "http://www.w3.org/2001/XMLSchema#pattern",
   "http://www.w3.org/2001/XMLSchema#minInclusive",
   "http://www.w3.org/2001/XMLSchema#maxInclusive",
   "http://www.w3.org/2001/XMLSchema#minExclusive",
   "http://www.w3.org/2001/XMLSchema#maxExclusive",
   "http://www.w3.org/2001/XMLSchema#totalDigits",
   "http://www.w3.org/2001/XMLSchema#fractionDigits",
   "http://www.w3.org/2002/07/owl#cardinality",
   "http://www.w3.org/2002/07/owl#minCardinality",
   "http://www.w3.org/2002/07/owl#maxCardinality"]

end TaxonomyPress
