import TaxonomyPress.Proofs.Distance
import TaxonomyPress.Proofs.NodeKeys

/-!
# Members and descendants

* `Taxonomy.MemberOf` : one step upwards along a parent or a type, said with the facts of the store;
* `Taxonomy.faithfulOn_memberSteps` : below a class all nodes are told apart by their keys;
* `Taxonomy.way_memberSteps_iff` : walks downwards go such steps backwards;
* `Taxonomy.mem_descendants_iff` : the descendants of a class are the other nodes from which such steps
  lead to it.
-/

namespace TaxonomyPress.Taxonomy

open Relation

variable {T : Taxonomy}

/-- The store declares `y` a parent or a type of `x`. -/
def MemberOf (T : Taxonomy) (x y : Term) : Prop :=
  ⟨x, Rdfs.subClassOf, y⟩ ∈ T.store.triples ∨ ⟨x, Rdf.type, y⟩ ∈ T.store.triples

theorem leads_memberSteps {n m : Node} :
    T.memberSteps.Leads n m ↔ m.kind = .classNode ∧ T.MemberOf m.term n.term :=
  mem_below_iff

theorem MemberOf.hasSubject {x y : Term} (h : T.MemberOf x y) : T.store.hasSubject x := by
  rcases h with h | h
  · exact Store.hasSubject_iff.2 ⟨_, h, rfl⟩
  · exact Store.hasSubject_iff.2 ⟨_, h, rfl⟩

theorem MemberOf.identifiable_left {x y : Term} (h : T.MemberOf x y) (hT : T.store.Unambiguous) :
    x.Identifiable := by
  obtain ⟨t, ht, rfl⟩ := Store.hasSubject_iff.1 h.hasSubject
  exact hT.identifiable_subject ht

theorem MemberOf.identifiable_right {x y : Term} (h : T.MemberOf x y) (hT : T.store.Unambiguous)
    (hy : y.isResource) : y.Identifiable := by
  rcases h with h | h
  · exact hT.identifiable_object h hy
  · exact hT.identifiable_object h hy

/-- What lies below a class is identifiable, whatever the class is. -/
theorem identifiable_of_mem_below (hT : T.store.Unambiguous) {n m : Node} (h : m ∈ T.below n) :
    m.term.Identifiable :=
  (leads_memberSteps.1 h).2.identifiable_left hT

theorem faithfulOn_memberSteps (hT : T.store.Unambiguous) :
    T.memberSteps.FaithfulOn fun n => n.term.Identifiable where
  closed _ _ _ hm := identifiable_of_mem_below hT hm
  key_inj _ _ hm hn h := (Node.key_inj hm hn).1 h

/-! ## Ways downwards -/

theorem way_memberSteps_iff {c x : Term} {k : Nat} :
    Way T.memberSteps.Leads (.ofClass c) k (.ofClass x) ↔ Way T.MemberOf x k c := by
  constructor
  · intro h
    have hterms : Way (Function.swap T.MemberOf) c k x :=
      h.map (f := Node.term) fun _ _ hstep => (leads_memberSteps.1 hstep).2
    exact hterms.swap
  · intro h
    exact h.swap.map (f := Node.ofClass) fun _ _ hstep => leads_memberSteps.2 ⟨rfl, hstep⟩

theorem transGen_memberSteps_iff {c : Term} {n : Node} :
    TransGen T.memberSteps.Leads (.ofClass c) n ↔
      n.kind = .classNode ∧ TransGen T.MemberOf n.term c := by
  have hclass : ∀ x, TransGen T.memberSteps.Leads (.ofClass c) (.ofClass x) ↔
      TransGen T.MemberOf x c := by
    intro x
    simp only [transGen_iff_exists_way, way_memberSteps_iff]
  constructor
  · intro h
    obtain ⟨m, -, hstep⟩ := TransGen.tail'_iff.1 h
    have hkind : n.kind = .classNode := (leads_memberSteps.1 hstep).1
    rw [← Node.ofClass_term hkind, hclass] at h
    exact ⟨hkind, h⟩
  · rintro ⟨hkind, h⟩
    rw [← Node.ofClass_term hkind, hclass]
    exact h

theorem descendants_of_bottom {n : Node} (h : T.below n = []) : T.descendants n = [] :=
  Steps.reached_of_next_eq_nil h

/-- Below a resource that is not identifiable there is nothing, for it is no value of the store. -/
theorem identifiable_or_bottom (hT : T.store.Unambiguous) {c : Term} (hc : c.isResource) :
    c.Identifiable ∨ T.below (.ofClass c) = [] := by
  by_cases hidentifiable : c.Identifiable
  · exact Or.inl hidentifiable
  · refine Or.inr (List.eq_nil_iff_forall_not_mem.2 fun n hn => ?_)
    exact hidentifiable ((leads_memberSteps.1 hn).2.identifiable_right hT hc)

/-- **The descendants of a class are the other nodes from which members lead to it.** -/
theorem mem_descendants_iff (hT : T.store.Unambiguous) {c : Term} (hc : c.isResource) {n : Node} :
    n ∈ T.descendants (.ofClass c) ↔
      n.kind = .classNode ∧ n.term ≠ c ∧ TransGen T.MemberOf n.term c := by
  have hne : n.kind = .classNode → (n ≠ .ofClass c ↔ n.term ≠ c) := by
    intro hkind
    rw [← Node.ofClass_term hkind]
    exact not_congr ⟨congrArg Node.term, congrArg Node.ofClass⟩
  rw [descendants, Steps.mem_reached_iff (faithfulOn_memberSteps hT) (identifiable_or_bottom hT hc),
    transGen_memberSteps_iff, and_left_comm]
  exact and_congr_right fun hkind => and_congr_left fun _ => hne hkind

end TaxonomyPress.Taxonomy
