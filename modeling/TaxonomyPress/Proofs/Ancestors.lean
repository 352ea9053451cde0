import TaxonomyPress.Proofs.NodeKeys
import TaxonomyPress.Proofs.Walks

/-!
# Real parents and ancestors

* `Taxonomy.RealParent` : one step upwards, said with the facts of the store
  (`Taxonomy.mem_realParents_iff`);
* `Taxonomy.Above` : some steps upwards;
* `Taxonomy.mem_ancestors_iff` : the ancestors of a node are the other nodes above it.
-/

namespace TaxonomyPress.Taxonomy

open Relation

variable {T : Taxonomy}

/-- The store declares `p` a parent of `n`, and `p` is another resource with a fact of its own. -/
structure RealParent (T : Taxonomy) (n p : Node) : Prop where
  kind_eq : p.kind = n.kind
  declared : ⟨n.term, parentPredicate n.kind, p.term⟩ ∈ T.store.triples
  term_ne : p.term ≠ n.term
  isResource : p.term.isResource
  hasSubject : T.store.hasSubject p.term

/-- One or more real parent steps lead from `n` to `m`. -/
def Above (T : Taxonomy) (n m : Node) : Prop := TransGen T.RealParent n m

theorem mem_realParents_iff {n p : Node} : p ∈ T.realParents n ↔ T.RealParent n p := by
  rw [mem_realParents, mem_realTargets]
  constructor
  · rintro ⟨hkind, hdeclared, hne, hresource, hsubject⟩
    exact ⟨hkind, hdeclared, hne, hresource, hsubject⟩
  · rintro ⟨hkind, hdeclared, hne, hresource, hsubject⟩
    exact ⟨hkind, hdeclared, hne, hresource, hsubject⟩

theorem leads_parentSteps : T.parentSteps.Leads = T.RealParent := by
  funext n p
  exact propext mem_realParents_iff

theorem RealParent.identifiable_left {n p : Node} (h : T.RealParent n p)
    (hT : T.store.Unambiguous) : n.term.Identifiable :=
  hT.identifiable_subject h.declared

theorem RealParent.identifiable_right {n p : Node} (h : T.RealParent n p)
    (hT : T.store.Unambiguous) : p.term.Identifiable :=
  hT.identifiable_object h.declared h.isResource

theorem Above.identifiable_left {n m : Node} (h : T.Above n m) (hT : T.store.Unambiguous) :
    n.term.Identifiable := by
  obtain ⟨p, hp, -⟩ := TransGen.head'_iff.1 h
  exact hp.identifiable_left hT

theorem Above.kind_eq {n m : Node} (h : T.Above n m) : m.kind = n.kind := by
  induction h with
  | single h => exact h.kind_eq
  | tail _ h ih => exact h.kind_eq.trans ih

/-- Walks upwards stay among identifiable nodes. -/
theorem faithfulOn_parentSteps (hT : T.store.Unambiguous) :
    T.parentSteps.FaithfulOn fun n => n.term.Identifiable where
  closed _ _ _ hp := (mem_realParents_iff.1 hp).identifiable_right hT
  key_inj _ _ hm hn h := (Node.key_inj hm hn).1 h

theorem ancestors_of_root {n : Node} (h : T.realParents n = []) : T.ancestors n = [] :=
  Steps.reached_of_next_eq_nil h

/-- A node that is not identifiable has no fact of its own, and no parents. -/
theorem identifiable_or_root (hT : T.store.Unambiguous) (n : Node) :
    n.term.Identifiable ∨ T.realParents n = [] := by
  by_cases hn : n.term.Identifiable
  · exact Or.inl hn
  · refine Or.inr (List.eq_nil_iff_forall_not_mem.2 fun p hp => ?_)
    exact hn ((mem_realParents_iff.1 hp).identifiable_left hT)

/-- **The ancestors of a node are the other nodes above it.** -/
theorem mem_ancestors_iff (hT : T.store.Unambiguous) {n m : Node} :
    m ∈ T.ancestors n ↔ m ≠ n ∧ T.Above n m := by
  rw [ancestors, Steps.mem_reached_iff (faithfulOn_parentSteps hT) (identifiable_or_root hT n),
    leads_parentSteps]
  rfl

/-! ## A loop with an exit -/

/-- `A` and `B` are parents of each other; the later parent of `B` is the root `D`, which has a
property. -/
def loopWithExit : Taxonomy where
  store := .ofList
    [⟨.iri "http://x/o#A", Rdf.type, .iri Rdfs.classType⟩,
     ⟨.iri "http://x/o#B", Rdf.type, .iri Rdfs.classType⟩,
     ⟨.iri "http://x/o#D", Rdf.type, .iri Rdfs.classType⟩,
     ⟨.iri "http://x/o#A", Rdfs.subClassOf, .iri "http://x/o#B"⟩,
     ⟨.iri "http://x/o#B", Rdfs.subClassOf, .iri "http://x/o#A"⟩,
     ⟨.iri "http://x/o#B", Rdfs.subClassOf, .iri "http://x/o#D"⟩,
     ⟨.iri "http://x/o#p", Rdfs.domain, .iri "http://x/o#D"⟩]
  namespaces := .empty

theorem realParent_A_B :
    loopWithExit.RealParent (.ofClass (.iri "http://x/o#A")) (.ofClass (.iri "http://x/o#B")) :=
  mem_realParents_iff.1 (by decide)

theorem realParent_B_D :
    loopWithExit.RealParent (.ofClass (.iri "http://x/o#B")) (.ofClass (.iri "http://x/o#D")) :=
  mem_realParents_iff.1 (by decide +kernel)

end TaxonomyPress.Taxonomy
