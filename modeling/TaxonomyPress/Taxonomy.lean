import TaxonomyPress.Dictionary
import TaxonomyPress.Distinct
import TaxonomyPress.Namespaces
import TaxonomyPress.Rdf.Store
import TaxonomyPress.Text.Quoted

/-!
# Taxonomies and their nodes

* `Node` : a term read as a class or as a property; `Node.key` is its identity in the walks;
* `Taxonomy` : a store and the namespaces to read it with;
* `Taxonomy.split`, `title`, `compactId` : the names of a node;
* `realTargets`, `realParents` : the targets of an edge that exist as subjects (`mem_realTargets`);
* `classes`, `properties`, `children`, `declaredProperties` : the nodes a taxonomy declares;
* `sortNodes` : nodes once each, by compact identifier.
-/

namespace TaxonomyPress

/-! ## Nodes -/

inductive NodeKind where
  | classNode
  | propertyNode
deriving DecidableEq

/-- The identity of a node: its identifier, cut behind the last separator, and its kind. -/
structure NodeKey where
  namespaceIri : String
  localName : String
  kind : NodeKind
deriving DecidableEq

/-- Classes before properties. -/
def NodeKind.compare : NodeKind → NodeKind → Ordering
  | classNode, classNode => .eq
  | classNode, propertyNode => .lt
  | propertyNode, classNode => .gt
  | propertyNode, propertyNode => .eq

/-- By namespace, then local name, then kind. -/
def NodeKey.compare (a b : NodeKey) : Ordering :=
  (compareText a.namespaceIri b.namespaceIri).then
    ((compareText a.localName b.localName).then (a.kind.compare b.kind))

/-- A term in the role of a class or of a property. -/
structure Node where
  kind : NodeKind
  term : Term
deriving DecidableEq

namespace Node

def ofClass (term : Term) : Node := ⟨.classNode, term⟩

def ofProperty (term : Term) : Node := ⟨.propertyNode, term⟩

/-- The text by which the node is known. -/
def identifier (n : Node) : String := n.term.identifier

/-- The node in diagnostics. -/
def display (n : Node) : String :=
  match n.kind with
  | .classNode => "ClassNode(" ++ Text.quoted n.identifier ++ ")"
  | .propertyNode => "PropertyNode(" ++ Text.quoted n.identifier ++ ")"

/-- Only IRIs have a namespace; all other identifiers are local names as a whole. -/
def key (n : Node) : NodeKey :=
  match n.term with
  | .iri i =>
    match splitAtSeparator i with
    | some (namespaceIri, localName) => ⟨namespaceIri, localName, n.kind⟩
    | none => ⟨"", i, n.kind⟩
  | other => ⟨"", other.identifier, n.kind⟩

@[simp] theorem key_kind (n : Node) : n.key.kind = n.kind := by
  unfold key
  split
  · split <;> rfl
  · rfl

/-- The two parts of the key make up the identifier. -/
theorem key_append (n : Node) : n.key.namespaceIri ++ n.key.localName = n.identifier := by
  obtain ⟨kind, term⟩ := n
  cases term with
  | iri i =>
    simp only [key, identifier, Term.identifier]
    split
    · rename_i h
      exact append_of_splitAtSeparator h
    · simp
  | blank label => simp [key, identifier]
  | literal l => simp [key, identifier]

end Node

/-! ## Taxonomies -/

/-- A graph and the namespaces by which its identifiers are read. -/
structure Taxonomy where
  store : Store
  namespaces : NamespaceTable

namespace Taxonomy

variable (T : Taxonomy)

/-- The same namespaces over another store. -/
abbrev withStore (store : Store) : Taxonomy := { T with store }

/-- Prefix and local name of a node. Only IRIs have them. -/
def split (n : Node) : Except MalformedIdentifier (String × String) :=
  match n.term with
  | .iri i => T.namespaces.split i
  | other => .error ⟨other.identifier⟩

/-- The local name of a node. -/
def title (n : Node) : Except MalformedIdentifier String := (T.split n).map (·.2)

/-- The prefixed name of a node, or its identifier if it has none. -/
def compactId (n : Node) : String :=
  match T.split n with
  | .ok (front, localName) => front ++ ":" ++ localName
  | .error _ => n.identifier

/-- The compact identifiers of the types of a node that are IRIs. -/
def typeIds (n : Node) : List String :=
  ((T.store.objects n.term Rdf.type).filterMap Term.asIri).map T.namespaces.shorten

/-- The text of the first literal value of `predicate`. -/
def firstText (term : Term) (predicate : String) : Option String :=
  ((T.store.objects term predicate).findSome? Term.asLiteral).map (·.text)

def versionInfo (n : Node) : Option String := T.firstText n.term Owl.versionInfo

def termStatus (n : Node) : Option String := T.firstText n.term Vs.termStatus

/-! ## Edges -/

/-- The values of `predicate` on `term` that are other resources with a fact of their own, each
once. All other targets are treated as absent. -/
def realTargets (term : Term) (predicate : String) : List Term :=
  (distinct (T.store.objects term predicate)).filter fun target =>
    target ≠ term && target.isResource && T.store.hasSubject target

theorem mem_realTargets {T : Taxonomy} {term target : Term} {predicate : String} :
    target ∈ T.realTargets term predicate ↔
      ⟨term, predicate, target⟩ ∈ T.store.triples ∧ target ≠ term ∧ target.isResource ∧
        T.store.hasSubject target := by
  simp [realTargets, List.mem_filter, mem_distinct, Store.mem_objects, and_assoc]

/-- Another store gives a term the same targets if it gives it the same values, and knows the same of
these as subjects. -/
theorem realTargets_congr {T : Taxonomy} {store : Store} {term : Term} {predicate : String}
    (hobjects : store.objects term predicate = T.store.objects term predicate)
    (hsubjects : ∀ o ∈ T.store.objects term predicate, store.hasSubject o = T.store.hasSubject o) :
    (T.withStore store).realTargets term predicate = T.realTargets term predicate := by
  unfold realTargets
  rw [hobjects]
  refine List.filter_congr fun target htarget => ?_
  rw [hsubjects target (mem_distinct.1 htarget)]

/-- The predicate that leads from a node to its parents. -/
def parentPredicate : NodeKind → String
  | .classNode => Rdfs.subClassOf
  | .propertyNode => Rdfs.subPropertyOf

/-- The parents of a node that exist, in the order of the graph; the first one is canonical. -/
def realParents (n : Node) : List Node :=
  (T.realTargets n.term (parentPredicate n.kind)).map (Node.mk n.kind)

/-- The keys of all terms of the store, in the role `kind`. -/
def nodeKeys (kind : NodeKind) : List NodeKey := T.store.terms.map fun t => (Node.mk kind t).key

theorem mem_realParents {T : Taxonomy} {n p : Node} :
    p ∈ T.realParents n ↔
      p.kind = n.kind ∧ p.term ∈ T.realTargets n.term (parentPredicate n.kind) := by
  obtain ⟨kind, term⟩ := p
  simp only [realParents, List.mem_map, Node.mk.injEq]
  constructor
  · rintro ⟨t, ht, rfl, rfl⟩
    exact ⟨rfl, ht⟩
  · rintro ⟨rfl, h⟩
    exact ⟨term, h, rfl, rfl⟩

theorem key_mem_nodeKeys_of_mem_realParents {T : Taxonomy} {n p : Node}
    (h : p ∈ T.realParents n) : p.key ∈ T.nodeKeys n.kind := by
  obtain ⟨hkind, hterm⟩ := mem_realParents.1 h
  refine List.mem_map.2 ⟨p.term, Store.object_mem_terms (mem_realTargets.1 hterm).1, ?_⟩
  rw [← hkind]

/-! ## Declared nodes -/

/-- The subjects typed as a class, in the order of the graph. -/
def classes : List Node :=
  (distinct (((T.store.matching { predicate := some Rdf.type }).filter fun t =>
    match t.object with
    | .iri i => i ∈ classTypes
    | _ => false).map (·.subject))).map Node.ofClass

/-- The subjects that declare a domain, in the order of the graph. -/
def properties : List Node :=
  (distinct ((T.store.matching { predicate := some Rdfs.domain }).map (·.subject))).map
    Node.ofProperty

/-- The subjects that declare `n` as a parent, other than `n` itself. -/
def children (n : Node) : List Node :=
  ((distinct (T.store.subjects Rdfs.subClassOf n.term)).filter (· ≠ n.term)).map Node.ofClass

def hasChildren (n : Node) : Bool := !(T.children n).isEmpty

/-- Named nodes by name and then by identifier. -/
def compareNamed (a b : String × Node) : Ordering :=
  (compareText a.1 b.1).then (compareText a.2.identifier b.2.identifier)

/-- Nodes once each, by compact identifier and then by identifier. -/
def sortNodes (nodes : List Node) : List Node :=
  (sortWith compareNamed ((distinctBy Node.key nodes).map fun n => (T.compactId n, n))).map (·.2)

/-- The properties whose domain is the class `n`. -/
def declaredProperties (n : Node) : List Node :=
  T.sortNodes ((T.store.subjects Rdfs.domain n.term).map Node.ofProperty)

/-- The literal values of `predicate` by language; the last one of a language stays. -/
def textsByLanguage (term : Term) (predicate : String) : Dictionary String :=
  .ofList (((T.store.objects term predicate).filterMap Term.asLiteral).map fun l =>
    (l.languageKey, l.text))

def labels (n : Node) : Dictionary String := T.textsByLanguage n.term Rdfs.label

def comments (n : Node) : Dictionary String := T.textsByLanguage n.term Rdfs.comment

/-! ## Properties of properties -/

/-- The declared domains that exist. -/
def domains (p : Node) : List Node := (T.realTargets p.term Rdfs.domain).map Node.ofClass

/-- The declared value types. A datatype counts although it has no facts of its own. -/
def ranges (p : Node) : List Node :=
  ((T.store.objects p.term Rdfs.range).filter Term.isResource).map Node.ofClass

/-- Whether some range is a resource that the graph describes. -/
def hasObjectRange (p : Node) : Bool := (T.ranges p).any fun r => T.store.hasSubject r.term

/-- The property itself and the resources that it names as restrictions. -/
def restrictionSources (p : Node) : List Term :=
  p.term :: (T.store.objects p.term Pot.restriction).filter Term.isResource

/-- A restricting fact as a pair of the facet's local name and its text. -/
def restrictionEntry (t : Triple) : Option (String × String) := do
  guard (t.predicate ∈ restrictionPredicates)
  let value ← t.object.asLiteral
  let (_, facet) ← splitAtSeparator t.predicate
  return (facet, value.text)

/-- The restrictions of a property by facet; the last value of a facet stays. -/
def restrictions (p : Node) : Dictionary String :=
  .ofList (((T.restrictionSources p).flatMap T.store.outgoing).filterMap restrictionEntry)

end Taxonomy

end TaxonomyPress
