import TaxonomyPress.Steps
import TaxonomyPress.Taxonomy

/-!
# Walks over a taxonomy

* `Taxonomy.parentSteps`, `Taxonomy.ancestors` : the nodes above a node along real parents;
* `Taxonomy.memberSteps`, `Taxonomy.descendants` : the nodes below a class along `rdfs:subClassOf`
  and `rdf:type`;
* `Taxonomy.allProperties` : the properties usable on a class, its own and the inherited ones.
-/

namespace TaxonomyPress

namespace Taxonomy

variable (T : Taxonomy)

/-! ## Upwards -/

theorem exists_keys_realParents :
    ∃ keys : List NodeKey, ∀ n, ∀ p ∈ T.realParents n, p.key ∈ keys := by
  refine ⟨T.nodeKeys .classNode ++ T.nodeKeys .propertyNode, fun n p hp => ?_⟩
  have hkey := key_mem_nodeKeys_of_mem_realParents hp
  cases hkind : n.kind <;> simp_all

/-- From a node to its real parents. -/
def parentSteps : Steps Node NodeKey := ⟨T.realParents, Node.key, T.exists_keys_realParents⟩

/-- Every node above `n`, the nearest ones first. -/
def ancestors (n : Node) : List Node := T.parentSteps.reached n

/-! ## Downwards -/

/-- The subjects one step below a class: its declared children and its instances. -/
def below (n : Node) : List Node :=
  (T.store.subjects Rdfs.subClassOf n.term ++ T.store.subjects Rdf.type n.term).map Node.ofClass

theorem mem_below_iff {T : Taxonomy} {n m : Node} : m ∈ T.below n ↔ m.kind = .classNode ∧
    (⟨m.term, Rdfs.subClassOf, n.term⟩ ∈ T.store.triples ∨
      ⟨m.term, Rdf.type, n.term⟩ ∈ T.store.triples) := by
  obtain ⟨kind, term⟩ := m
  simp only [below, List.mem_map, List.mem_append, Store.mem_subjects, Node.ofClass, Node.mk.injEq]
  constructor
  · rintro ⟨s, hs, rfl, rfl⟩
    exact ⟨rfl, hs⟩
  · rintro ⟨rfl, hs⟩
    exact ⟨term, hs, rfl, rfl⟩

theorem exists_keys_below : ∃ keys : List NodeKey, ∀ n, ∀ m ∈ T.below n, m.key ∈ keys := by
  refine ⟨T.nodeKeys .classNode, fun n m hm => ?_⟩
  simp only [below, List.mem_map, List.mem_append, Store.mem_subjects] at hm
  obtain ⟨term, hterm, rfl⟩ := hm
  refine List.mem_map.2 ⟨term, ?_, rfl⟩
  exact hterm.elim Store.subject_mem_terms Store.subject_mem_terms

/-- From a class to the subjects below it. -/
def memberSteps : Steps Node NodeKey := ⟨T.below, Node.key, T.exists_keys_below⟩

/-- Every node below the class `n`, the nearest ones first. -/
def descendants (n : Node) : List Node := T.memberSteps.reached n

/-! ## Inheritance -/

/-- Every property usable on instances of the class `n`, its own and those of its ancestors. -/
def allProperties (n : Node) : List Node :=
  T.sortNodes ((T.ancestors n).flatMap T.declaredProperties ++ T.declaredProperties n)

end Taxonomy

end TaxonomyPress
