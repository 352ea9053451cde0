import TaxonomyPress.Proofs.Ancestors
import TaxonomyPress.Proofs.Order

/-!
# Inherited properties

* `Taxonomy.mem_sortNodes`, `Taxonomy.pairwise_sortNodes` : sorting loses no node and leaves no tie;
* `Taxonomy.mem_declaredProperties_iff` : the properties declared on a class are the subjects of its
  domain facts;
* `Taxonomy.mem_allProperties_iff` : the properties of a class are those declared on it or above it;
* `Taxonomy.allProperties_transitive_closure` : all that, once each, in order, for every graph.
-/

namespace TaxonomyPress.Taxonomy

open Relation

variable {T : Taxonomy}

/-! ## Sorted nodes -/

/-- Sorting keeps one node of each key. -/
theorem perm_sortNodes (nodes : List Node) :
    (T.sortNodes nodes).Perm (distinctBy Node.key nodes) := by
  have hnames : ((distinctBy Node.key nodes).map fun n => (T.compactId n, n)).map (·.2) =
      distinctBy Node.key nodes := by
    rw [List.map_map]
    exact List.map_id _
  exact ((perm_sortWith compareNamed _).map (·.2)).trans (.of_eq hnames)

theorem mem_sortNodes_iff {nodes : List Node} {n : Node} :
    n ∈ T.sortNodes nodes ↔ n ∈ distinctBy Node.key nodes :=
  (perm_sortNodes nodes).mem_iff

theorem nodup_map_key_sortNodes (nodes : List Node) : ((T.sortNodes nodes).map Node.key).Nodup :=
  ((perm_sortNodes nodes).map Node.key).nodup_iff.2 (nodup_map_distinctBy Node.key nodes)

theorem mem_of_mem_sortNodes {nodes : List Node} {n : Node} (hn : n ∈ T.sortNodes nodes) :
    n ∈ nodes :=
  mem_of_mem_distinctBy (mem_sortNodes_iff.1 hn)

theorem mem_sortNodes {nodes : List Node} (h : ∀ n ∈ nodes, n.term.Identifiable) {n : Node} :
    n ∈ T.sortNodes nodes ↔ n ∈ nodes := by
  refine ⟨mem_of_mem_sortNodes, fun hn => mem_sortNodes_iff.2 ?_⟩
  obtain ⟨m, hm, hkey⟩ : ∃ m ∈ distinctBy Node.key nodes, m.key = n.key := exists_mem_distinctBy hn
  have hmn : m = n := (Node.key_inj (h m (mem_of_mem_distinctBy hm)) (h n hn)).1 hkey
  exact hmn ▸ hm

/-- Nodes that are in order already, no two with one key, stay as they are. -/
theorem sortNodes_eq_self {nodes : List Node} (hkeys : (nodes.map Node.key).Nodup)
    (h : nodes.Pairwise fun a b => (compareNamed (T.compactId a, a) (T.compactId b, b)).isLE) :
    T.sortNodes nodes = nodes := by
  have hsorted : (nodes.map fun n => (T.compactId n, n)).Pairwise
      fun a b => (compareNamed a b).isLE := List.pairwise_map.2 h
  rw [sortNodes, distinctBy_of_nodup hkeys, sortWith, List.mergeSort_of_pairwise hsorted,
    List.map_map]
  exact List.map_id _

theorem sortNodes_singleton (n : Node) : T.sortNodes [n] = [n] :=
  sortNodes_eq_self (List.nodup_singleton _) (List.pairwise_singleton _ _)

theorem declaredProperties_of_subjects_eq {c p : Term}
    (h : T.store.subjects Rdfs.domain c = [p]) :
    T.declaredProperties (.ofClass c) = [.ofProperty p] := by
  rw [declaredProperties, show (Node.ofClass c).term = c from rfl, h, List.map_singleton,
    sortNodes_singleton]

/-- A class without parents and with one domain fact has the one property. -/
theorem allProperties_of_subjects_eq {c p : Term} (hroot : T.realParents (.ofClass c) = [])
    (h : T.store.subjects Rdfs.domain c = [p]) :
    T.allProperties (.ofClass c) = [.ofProperty p] := by
  rw [allProperties, ancestors_of_root hroot, declaredProperties_of_subjects_eq h,
    List.flatMap_nil, List.nil_append, sortNodes_singleton]

/-- `a` comes before `b` by compact identifier, or by identifier where those agree. -/
def Precedes (T : Taxonomy) (a b : Node) : Prop :=
  (compareText (T.compactId a) (T.compactId b)).then (compareText a.identifier b.identifier) = .lt

theorem not_precedes_self (n : Node) : ¬ T.Precedes n n := by
  rw [Precedes, compareText_eq_iff.2 rfl, compareText_eq_iff.2 rfl]
  decide

/-- Sorted nodes of one kind have no ties. -/
theorem pairwise_sortNodes {kind : NodeKind} {nodes : List Node}
    (h : ∀ n ∈ nodes, n.kind = kind ∧ n.term.Identifiable) :
    (T.sortNodes nodes).Pairwise T.Precedes := by
  have hkeys : (distinctBy Node.key nodes).Pairwise fun a b => a.key ≠ b.key :=
    List.pairwise_map.1 (nodup_map_distinctBy Node.key nodes)
  have hties : ((distinctBy Node.key nodes).map fun n => (T.compactId n, n)).Pairwise
      fun a b => compareNamed a b ≠ .eq := by
    refine List.pairwise_map.2 (hkeys.imp_of_mem ?_)
    intro a b ha hb hkey htie
    obtain ⟨hak, hai⟩ := h a (mem_of_mem_distinctBy ha)
    obtain ⟨hbk, hbi⟩ := h b (mem_of_mem_distinctBy hb)
    have hterm : a.term = b.term := (Term.identifier_inj hai hbi).1 (compareNamed_eq_iff.1 htie).2
    have hab : a = b := congr (congrArg Node.mk (hak.trans hbk.symm)) hterm
    exact hkey (congrArg Node.key hab)
  refine List.pairwise_map.2 ((pairwise_lt_sortWith hties).imp_of_mem ?_)
  intro a b ha hb hlt
  obtain ⟨m, -, rfl⟩ := List.mem_map.1 (mem_sortWith.1 ha)
  obtain ⟨n, -, rfl⟩ := List.mem_map.1 (mem_sortWith.1 hb)
  exact hlt

/-! ## Declared properties -/

theorem mem_map_domain_subjects {d : Term} {p : Node} :
    p ∈ (T.store.subjects Rdfs.domain d).map Node.ofProperty ↔
      p.kind = .propertyNode ∧ ⟨p.term, Rdfs.domain, d⟩ ∈ T.store.triples := by
  obtain ⟨kind, term⟩ := p
  simp only [List.mem_map, Store.mem_subjects, Node.ofProperty, Node.mk.injEq]
  constructor
  · rintro ⟨s, hs, rfl, rfl⟩
    exact ⟨rfl, hs⟩
  · rintro ⟨rfl, hs⟩
    exact ⟨term, hs, rfl, rfl⟩

theorem mem_declaredProperties_iff (hT : T.store.Unambiguous) {n p : Node} :
    p ∈ T.declaredProperties n ↔
      p.kind = .propertyNode ∧ ⟨p.term, Rdfs.domain, n.term⟩ ∈ T.store.triples := by
  rw [declaredProperties, mem_sortNodes, mem_map_domain_subjects]
  intro q hq
  exact hT.identifiable_subject (mem_map_domain_subjects.1 hq).2

/-! ## Inheritance -/

/-- What `allProperties` collects before it sorts. -/
theorem mem_collected_iff (hT : T.store.Unambiguous) {c p : Node} :
    p ∈ (T.ancestors c).flatMap T.declaredProperties ++ T.declaredProperties c ↔
      p.kind = .propertyNode ∧ ∃ d : Node,
        ⟨p.term, Rdfs.domain, d.term⟩ ∈ T.store.triples ∧ (d = c ∨ T.Above c d) := by
  simp only [List.mem_append, List.mem_flatMap, mem_ancestors_iff hT, mem_declaredProperties_iff hT]
  constructor
  · rintro (⟨d, ⟨-, hd⟩, hkind, hp⟩ | ⟨hkind, hp⟩)
    · exact ⟨hkind, d, hp, Or.inr hd⟩
    · exact ⟨hkind, c, hp, Or.inl rfl⟩
  · rintro ⟨hkind, d, hp, hd⟩
    by_cases hdc : d = c
    · exact Or.inr ⟨hkind, hdc ▸ hp⟩
    · exact Or.inl ⟨d, ⟨hdc, hd.resolve_left hdc⟩, hkind, hp⟩

theorem collected_identifiable (hT : T.store.Unambiguous) {c p : Node}
    (hp : p ∈ (T.ancestors c).flatMap T.declaredProperties ++ T.declaredProperties c) :
    p.kind = .propertyNode ∧ p.term.Identifiable := by
  obtain ⟨hkind, d, hp, -⟩ := (mem_collected_iff hT).1 hp
  exact ⟨hkind, hT.identifiable_subject hp⟩

theorem mem_allProperties_iff (hT : T.store.Unambiguous) {c p : Node} :
    p ∈ T.allProperties c ↔
      p.kind = .propertyNode ∧ ∃ d : Node,
        ⟨p.term, Rdfs.domain, d.term⟩ ∈ T.store.triples ∧ (d = c ∨ T.Above c d) := by
  rw [allProperties, mem_sortNodes, mem_collected_iff hT]
  intro q hq
  exact (collected_identifiable hT hq).2

theorem pairwise_allProperties (hT : T.store.Unambiguous) (c : Node) :
    (T.allProperties c).Pairwise T.Precedes :=
  pairwise_sortNodes fun _ hp => collected_identifiable hT hp

theorem nodup_allProperties (hT : T.store.Unambiguous) (c : Node) : (T.allProperties c).Nodup := by
  refine (pairwise_allProperties hT c).imp ?_
  rintro p q hpq rfl
  exact not_precedes_self p hpq

theorem declaredProperties_subset_allProperties (hT : T.store.Unambiguous) (c : Node) :
    T.declaredProperties c ⊆ T.allProperties c := by
  intro p hp
  obtain ⟨hkind, hp⟩ := (mem_declaredProperties_iff hT).1 hp
  exact (mem_allProperties_iff hT).2 ⟨hkind, c, hp, Or.inl rfl⟩

theorem RealParent.allProperties_subset {c p : Node} (h : T.RealParent c p)
    (hT : T.store.Unambiguous) : T.allProperties p ⊆ T.allProperties c := by
  intro q hq
  obtain ⟨hkind, d, hq, hd⟩ := (mem_allProperties_iff hT).1 hq
  refine (mem_allProperties_iff hT).2 ⟨hkind, d, hq, Or.inr ?_⟩
  rcases hd with rfl | hd
  · exact TransGen.single h
  · exact TransGen.head h hd

/-- **Inheritance is the transitive closure.** On every graph the properties of a class are those
with a domain that is the class or lies above it, each once, by increasing name; they contain the
declared ones and all properties of each real parent. -/
theorem allProperties_transitive_closure (T : Taxonomy) (hT : T.store.Unambiguous) (c : Term) :
    (∀ p : Node, p ∈ T.allProperties (.ofClass c) ↔
      p.kind = .propertyNode ∧ ∃ d : Term, ⟨p.term, Rdfs.domain, d⟩ ∈ T.store.triples ∧
        (d = c ∨ T.Above (.ofClass c) (.ofClass d))) ∧
      (T.allProperties (.ofClass c)).Nodup ∧
      (T.allProperties (.ofClass c)).Pairwise T.Precedes ∧
      T.declaredProperties (.ofClass c) ⊆ T.allProperties (.ofClass c) ∧
      ∀ p, T.RealParent (.ofClass c) p → T.allProperties p ⊆ T.allProperties (.ofClass c) := by
  refine ⟨fun p => ?_, nodup_allProperties hT _, pairwise_allProperties hT _,
    declaredProperties_subset_allProperties hT _, fun p hp => hp.allProperties_subset hT⟩
  rw [mem_allProperties_iff hT]
  refine and_congr_right fun _ => ⟨?_, ?_⟩
  · rintro ⟨d, hd, hdc | habove⟩
    · exact ⟨d.term, hd, Or.inl (congrArg Node.term hdc)⟩
    · have hclass : Node.ofClass d.term = d := Node.ofClass_term habove.kind_eq
      refine ⟨d.term, hd, Or.inr ?_⟩
      rw [hclass]
      exact habove
  · rintro ⟨d, hd, rfl | habove⟩
    · exact ⟨.ofClass d, hd, Or.inl rfl⟩
    · exact ⟨.ofClass d, hd, Or.inr habove⟩

/-- A property of the class behind the loop reaches the class in front of it. -/
theorem loopWithExit_inherits :
    loopWithExit.store.Unambiguous ∧
      .ofProperty (.iri "http://x/o#p") ∈
        loopWithExit.allProperties (.ofClass (.iri "http://x/o#A")) := by
  have hT : loopWithExit.store.Unambiguous := by decide
  have hclosure := (allProperties_transitive_closure loopWithExit hT (.iri "http://x/o#A")).1
  refine ⟨hT, (hclosure _).2 ⟨rfl, .iri "http://x/o#D", by decide, Or.inr ?_⟩⟩
  exact TransGen.head realParent_A_B (TransGen.single realParent_B_D)

end TaxonomyPress.Taxonomy
