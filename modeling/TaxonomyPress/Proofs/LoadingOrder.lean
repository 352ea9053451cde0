import TaxonomyPress.Proofs.Descendants
import TaxonomyPress.Proofs.Inheritance
import TaxonomyPress.Proofs.Lineages
import TaxonomyPress.Proofs.Publication

/-!
# The order of the facts

* `Store.SameFacts` : two stores hold the same facts, in whatever order;
* `SameFacts.realParent_eq` : edges are the same, and so are the ancestors and the descendants of a
  class up to their order (`SameFacts.perm_ancestors`, `SameFacts.perm_descendants`);
* `SameFacts.allProperties_eq` : sorted properties are the same list, since their order has no ties;
* `SameFacts.lineages_eq` : lineages are the same, if there are any;
* `Taxonomy.results_independent_of_order` : all that for facts loaded in two orders.
-/

namespace TaxonomyPress

open Relation

/-! ## Stores with the same facts -/

/-- The stores hold the same facts. -/
def Store.SameFacts (store store' : Store) : Prop := ∀ t, t ∈ store'.triples ↔ t ∈ store.triples

theorem Store.mem_terms_iff {store : Store} {term : Term} :
    term ∈ store.terms ↔ ∃ t ∈ store.triples, term = t.subject ∨ term = t.object := by
  simp [terms]

namespace Store.SameFacts

variable {store store' : Store} (h : store.SameFacts store')

include h

theorem symm : store'.SameFacts store := fun t => (h t).symm

theorem hasSubject_iff {s : Term} : store'.hasSubject s ↔ store.hasSubject s := by
  rw [Store.hasSubject_iff, Store.hasSubject_iff]
  exact exists_congr fun t => and_congr_left' (h t)

theorem mem_terms_iff {term : Term} : term ∈ store'.terms ↔ term ∈ store.terms := by
  rw [Store.mem_terms_iff, Store.mem_terms_iff]
  exact exists_congr fun t => and_congr_left' (h t)

theorem unambiguous (hstore : store.Unambiguous) : store'.Unambiguous where
  subject_isResource t ht := hstore.subject_isResource t ((h t).1 ht)
  notBlankLike term hterm := hstore.notBlankLike term (h.mem_terms_iff.1 hterm)

end Store.SameFacts

theorem Store.sameFacts_ofList {facts facts' : List Triple} (h : ∀ t, t ∈ facts ↔ t ∈ facts') :
    (Store.ofList facts).SameFacts (Store.ofList facts') := by
  intro t
  rw [Store.mem_triples_ofList, Store.mem_triples_ofList]
  exact (h t).symm

namespace Taxonomy

variable {T : Taxonomy}

/-! ## Sorted nodes -/

theorem Precedes.asymm {a b : Node} (hab : T.Precedes a b) : ¬ T.Precedes b a := by
  have hswap : ∀ s t, compareText t s = (compareText s t).swap := fun _ _ => Std.OrientedCmp.eq_swap
  unfold Precedes at hab ⊢
  rw [hswap (T.compactId a), hswap a.identifier, ← Ordering.swap_then, hab]
  decide

/-- Nodes in order without ties are determined by which they are. -/
theorem eq_of_pairwise_precedes {xs ys : List Node} (hxs : xs.Pairwise T.Precedes)
    (hys : ys.Pairwise T.Precedes) (h : ∀ n, n ∈ xs ↔ n ∈ ys) : xs = ys := by
  have hnodup : ∀ {zs : List Node}, zs.Pairwise T.Precedes → zs.Nodup := by
    intro zs hzs
    refine hzs.imp ?_
    rintro a b hab rfl
    exact not_precedes_self a hab
  refine List.Perm.eq_of_pairwise ?_ hxs hys
    ((List.perm_ext_iff_of_nodup (hnodup hxs) (hnodup hys)).2 h)
  intro a b _ _ hab hba
  exact absurd hba hab.asymm

theorem pairwise_declaredProperties (hT : T.store.Unambiguous) (n : Node) :
    (T.declaredProperties n).Pairwise T.Precedes := by
  have hmembers : ∀ p ∈ (T.store.subjects Rdfs.domain n.term).map Node.ofProperty,
      p.kind = .propertyNode ∧ p.term.Identifiable := by
    intro p hp
    obtain ⟨hkind, hp⟩ := mem_map_domain_subjects.1 hp
    exact ⟨hkind, hT.identifiable_subject hp⟩
  exact pairwise_sortNodes hmembers

end Taxonomy

/-! ## What the order does not bear on -/

namespace Store.SameFacts

open Taxonomy

variable {T : Taxonomy} {store : Store} (h : T.store.SameFacts store)

include h

theorem realParent_eq : (T.withStore store).RealParent = T.RealParent := by
  funext n p
  refine propext ⟨fun hp => ?_, fun hp => ?_⟩
  · exact ⟨hp.kind_eq, (h _).1 hp.declared, hp.term_ne, hp.isResource,
      h.hasSubject_iff.1 hp.hasSubject⟩
  · exact ⟨hp.kind_eq, (h _).2 hp.declared, hp.term_ne, hp.isResource,
      h.hasSubject_iff.2 hp.hasSubject⟩

theorem mem_realParents_iff {n p : Node} :
    p ∈ (T.withStore store).realParents n ↔ p ∈ T.realParents n := by
  rw [Taxonomy.mem_realParents_iff, Taxonomy.mem_realParents_iff, h.realParent_eq]

theorem perm_ancestors (hT : T.store.Unambiguous) (n : Node) :
    ((T.withStore store).ancestors n).Perm (T.ancestors n) := by
  have hnext : ∀ n p, p ∈ (T.withStore store).parentSteps.next n ↔ p ∈ T.parentSteps.next n :=
    fun _ _ => h.mem_realParents_iff
  have hkey : (T.withStore store).parentSteps.key = T.parentSteps.key := rfl
  refine Steps.perm_reached (faithfulOn_parentSteps hT) hkey hnext fun p hp => ?_
  exact (Taxonomy.mem_realParents_iff.1 hp).identifiable_right hT

theorem perm_descendants (hT : T.store.Unambiguous) (n : Node) :
    ((T.withStore store).descendants n).Perm (T.descendants n) := by
  have hnext : ∀ n m, m ∈ (T.withStore store).memberSteps.next n ↔ m ∈ T.memberSteps.next n := by
    intro n m
    show m ∈ (T.withStore store).below n ↔ m ∈ T.below n
    rw [mem_below_iff, mem_below_iff, h, h]
  have hkey : (T.withStore store).memberSteps.key = T.memberSteps.key := rfl
  exact Steps.perm_reached (faithfulOn_memberSteps hT) hkey hnext fun m hm =>
    identifiable_of_mem_below hT hm

theorem descendantIds_eq (hT : T.store.Unambiguous) (n : Node) :
    sortWith compareText (((T.withStore store).descendants n).map (T.withStore store).compactId) =
      sortWith compareText ((T.descendants n).map T.compactId) := by
  refine sortWith_eq_of_perm ((h.perm_descendants hT n).map T.compactId) fun _ _ _ _ htie => ?_
  exact compareText_eq_iff.1 htie

theorem declaredProperties_eq (hT : T.store.Unambiguous) (n : Node) :
    (T.withStore store).declaredProperties n = T.declaredProperties n := by
  have hstore : store.Unambiguous := h.unambiguous hT
  have hpairs : ((T.withStore store).declaredProperties n).Pairwise T.Precedes :=
    pairwise_declaredProperties (T := T.withStore store) hstore n
  refine eq_of_pairwise_precedes hpairs (pairwise_declaredProperties hT n) fun p => ?_
  rw [mem_declaredProperties_iff hstore, mem_declaredProperties_iff hT, h]

theorem allProperties_eq (hT : T.store.Unambiguous) (n : Node) :
    (T.withStore store).allProperties n = T.allProperties n := by
  have hstore : store.Unambiguous := h.unambiguous hT
  have hpairs : ((T.withStore store).allProperties n).Pairwise T.Precedes :=
    pairwise_allProperties (T := T.withStore store) hstore n
  refine eq_of_pairwise_precedes hpairs (pairwise_allProperties hT n) fun p => ?_
  rw [mem_allProperties_iff hstore, mem_allProperties_iff hT]
  simp only [Above, h.realParent_eq, h _]

/-- Where one order gives title paths, the other gives the same ones. -/
theorem exists_titlePaths {onPath : List NodeKey} {n : Node} {paths : List (List String)}
    (hpaths : T.titlePaths onPath n = .ok paths) :
    ∃ paths', (T.withStore store).titlePaths onPath n = .ok paths' ∧ ∀ l, l ∈ paths' ↔ l ∈ paths := by
  induction onPath, n using climb_induction (T := T) generalizing paths with
  | h onPath n ih =>
    obtain ⟨title, above, htitle, habove, rfl⟩ := titlePaths_eq_ok_iff.1 hpaths
    have hfresh : ∀ p, p ∈ (T.withStore store).freshParents onPath n ↔ p ∈ T.freshParents onPath n := by
      intro p
      rw [mem_freshParents, mem_freshParents, h.realParent_eq]
    have hparent : ∀ p ∈ T.freshParents onPath n, ∃ result result',
        T.titlePaths (p.key :: onPath) p = .ok result ∧
          (T.withStore store).titlePaths (p.key :: onPath) p = .ok result' ∧
          ∀ l, l ∈ result' ↔ l ∈ result := by
      intro p hp
      obtain ⟨result, -, hresult⟩ := exists_mem_mapM_of_mem habove hp
      obtain ⟨hreal, hkey⟩ := mem_freshParents.1 hp
      obtain ⟨result', hresult', hsame⟩ := ih p hreal hkey hresult
      exact ⟨result, result', hresult, hresult', hsame⟩
    obtain ⟨above', habove'⟩ := exists_mapM_eq_ok fun p hp => by
      obtain ⟨-, result', -, hresult', -⟩ := hparent p ((hfresh p).1 hp)
      exact ⟨result', hresult'⟩
    have hflat : ∀ l, l ∈ above'.flatten ↔ l ∈ above.flatten := by
      intro l
      rw [mem_flatten_of_mapM_eq_ok habove', mem_flatten_of_mapM_eq_ok habove]
      simp only [hfresh]
      refine exists_congr fun p => and_congr_right fun hp => ?_
      obtain ⟨result, result', hresult, hresult', hsame⟩ := hparent p hp
      simp only [hresult, hresult', Except.ok.injEq, exists_eq_left', hsame]
    refine ⟨_, titlePaths_eq_ok_iff.2 ⟨title, above', htitle, habove', rfl⟩, fun l => ?_⟩
    have hnil : above'.flatten = [] ↔ above.flatten = [] := by
      simp only [List.eq_nil_iff_forall_not_mem, hflat]
    rw [mem_extendPaths, mem_extendPaths, hnil]
    simp only [hflat]

theorem lineages_eq {n : Node} {lineages : List (List String)}
    (hlineages : T.lineages n = .ok lineages) : (T.withStore store).lineages n = .ok lineages := by
  obtain ⟨paths, hpaths, rfl⟩ := lineages_eq_ok_iff.1 hlineages
  obtain ⟨paths', hpaths', hmem⟩ := h.exists_titlePaths hpaths
  refine lineages_eq_ok_iff.2 ⟨paths', hpaths', ?_⟩
  have hperm : (distinct paths').Perm (distinct paths) := by
    refine (List.perm_ext_iff_of_nodup (nodup_distinct _) (nodup_distinct _)).2 fun l => ?_
    rw [mem_distinct, mem_distinct, hmem]
  refine sortWith_eq_of_perm hperm fun l _ l' _ htie => ?_
  exact (lexicographic_eq_iff (fun _ _ => compareText_eq_iff) l l').1 htie

/-- Either order may meet another name first that is malformed. -/
theorem lineages_cases (n : Node) :
    ((∃ cause, T.lineages n = .error cause) ∧
        ∃ cause, (T.withStore store).lineages n = .error cause) ∨
      ∃ lineages, T.lineages n = .ok lineages ∧ (T.withStore store).lineages n = .ok lineages := by
  cases hT : T.lineages n with
  | ok lineages => exact Or.inr ⟨lineages, rfl, h.lineages_eq hT⟩
  | error cause =>
    refine Or.inl ⟨⟨cause, rfl⟩, ?_⟩
    cases hstore : (T.withStore store).lineages n with
    | error cause' => exact ⟨cause', rfl⟩
    | ok lineages =>
      have hback : T.lineages n = .ok lineages := lineages_eq (T := T.withStore store) h.symm hstore
      rw [hT] at hback
      cases hback

end Store.SameFacts

/-! ## The main result -/

namespace Taxonomy

/-- **Results do not depend on the order of the facts.** Facts loaded in two orders, and with any
repetitions, give every class the same lists of properties, the same identifiers below it, the same
ancestors up to their order, and the same lineages, unless it has none either way. -/
theorem results_independent_of_order (table : NamespaceTable) {facts facts' : List Triple}
    (hsame : ∀ t, t ∈ facts ↔ t ∈ facts') (hfacts : (Store.ofList facts).Unambiguous) (c : Term) :
    let T : Taxonomy := ⟨.ofList facts, table⟩
    let T' : Taxonomy := ⟨.ofList facts', table⟩
    let C : Node := .ofClass c
    T'.allProperties C = T.allProperties C ∧
      T'.declaredProperties C = T.declaredProperties C ∧
      sortWith compareText ((T'.descendants C).map T'.compactId) =
        sortWith compareText ((T.descendants C).map T.compactId) ∧
      (∀ record record', T.classRecord C = .ok record → T'.classRecord C = .ok record' →
        record'.descendantIds = record.descendantIds) ∧
      (T'.ancestors C).Perm (T.ancestors C) ∧
      (((∃ cause, T.lineages C = .error cause) ∧ ∃ cause, T'.lineages C = .error cause) ∨
        ∃ lineages, T.lineages C = .ok lineages ∧ T'.lineages C = .ok lineages) := by
  intro T T' C
  have h : T.store.SameFacts T'.store := Store.sameFacts_ofList hsame
  have hids := h.descendantIds_eq hfacts C
  refine ⟨h.allProperties_eq hfacts C, h.declaredProperties_eq hfacts C, hids, ?_,
    h.perm_ancestors hfacts C, h.lineages_cases C⟩
  intro record record' hrecord hrecord'
  rw [(fields_of_classRecord hrecord).2.2, (fields_of_classRecord hrecord').2.2]
  exact hids

/-- A bridge is a structure and an asset, and both have a property. -/
def bridgeFacts : List Triple :=
  [⟨.iri "http://x/o#Structure", Rdf.type, .iri Rdfs.classType⟩,
   ⟨.iri "http://x/o#Asset", Rdf.type, .iri Rdfs.classType⟩,
   ⟨.iri "http://x/o#Bridge", Rdfs.subClassOf, .iri "http://x/o#Structure"⟩,
   ⟨.iri "http://x/o#Bridge", Rdfs.subClassOf, .iri "http://x/o#Asset"⟩,
   ⟨.iri "http://x/o#value", Rdfs.domain, .iri "http://x/o#Asset"⟩,
   ⟨.iri "http://x/o#height", Rdfs.domain, .iri "http://x/o#Structure"⟩]

/-- Read backwards, the facts give the bridge another first parent, and yet the same properties. -/
theorem bridge_read_backwards :
    (∀ t, t ∈ bridgeFacts ↔ t ∈ bridgeFacts.reverse) ∧
      (Store.ofList bridgeFacts).Unambiguous ∧
      realParents ⟨.ofList bridgeFacts.reverse, .empty⟩ (.ofClass (.iri "http://x/o#Bridge")) ≠
        realParents ⟨.ofList bridgeFacts, .empty⟩ (.ofClass (.iri "http://x/o#Bridge")) ∧
      allProperties ⟨.ofList bridgeFacts.reverse, .empty⟩ (.ofClass (.iri "http://x/o#Bridge")) =
        allProperties ⟨.ofList bridgeFacts, .empty⟩ (.ofClass (.iri "http://x/o#Bridge")) := by
  have hsame : ∀ t, t ∈ bridgeFacts ↔ t ∈ bridgeFacts.reverse := fun _ => List.mem_reverse.symm
  have hfacts : (Store.ofList bridgeFacts).Unambiguous := by decide
  have hmain := results_independent_of_order .empty hsame hfacts (.iri "http://x/o#Bridge")
  exact ⟨hsame, hfacts, by decide, hmain.1⟩

end Taxonomy

end TaxonomyPress
