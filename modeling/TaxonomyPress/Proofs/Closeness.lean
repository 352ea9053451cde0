import TaxonomyPress.Proofs.Ancestors
import TaxonomyPress.Proofs.Descendants

/-!
# The nearest first

Ancestors and descendants come in the order of their distance, on every graph.

* `Taxonomy.distance_memberSteps` : walks downwards measure the distance that members have to a class;
* `Taxonomy.pairwise_descendants`, `Taxonomy.pairwise_ancestors` : both lists grow in distance;
* `Taxonomy.length_descendants_le`, `Taxonomy.length_ancestors_le` : neither is longer than the number
  of subjects;
* `Taxonomy.descendants_breadth_first`, `Taxonomy.ancestors_closest_first` : what the lists hold, once
  each, in which order.
-/

namespace TaxonomyPress.Taxonomy

open Relation

variable {T : Taxonomy}

/-! ## Downwards -/

theorem distance_memberSteps {c : Term} {n : Node} (hkind : n.kind = .classNode) :
    distance T.memberSteps.Leads (.ofClass c) n = distance T.MemberOf n.term c := by
  rw [← Node.ofClass_term hkind]
  exact distance_congr fun _ => way_memberSteps_iff

theorem pairwise_descendants (hT : T.store.Unambiguous) {c : Term} (hc : c.isResource) :
    (T.descendants (.ofClass c)).Pairwise fun m n =>
      distance T.MemberOf m.term c ≤ distance T.MemberOf n.term c := by
  rcases identifiable_or_bottom hT hc with hidentifiable | hbottom
  · have hkind : ∀ n ∈ T.descendants (.ofClass c), n.kind = .classNode := fun n hn =>
      ((mem_descendants_iff hT hc).1 hn).1
    have hwalk : (T.descendants (.ofClass c)).Pairwise fun m n =>
        distance T.memberSteps.Leads (.ofClass c) m ≤
          distance T.memberSteps.Leads (.ofClass c) n :=
      Steps.pairwise_reached (faithfulOn_memberSteps hT) hidentifiable
    refine hwalk.imp_of_mem fun {m n} hm hn hle => ?_
    rwa [distance_memberSteps (hkind m hm), distance_memberSteps (hkind n hn)] at hle
  · rw [descendants_of_bottom hbottom]
    exact .nil

theorem length_descendants_le (hT : T.store.Unambiguous) {c : Term} (hc : c.isResource) :
    (T.descendants (.ofClass c)).length ≤
      (distinct (T.store.triples.map Triple.subject)).length := by
  have hsubjects : ∀ n ∈ T.descendants (.ofClass c),
      n.kind = .classNode ∧ T.store.hasSubject n.term := by
    intro n hn
    obtain ⟨hkind, -, hmember⟩ := (mem_descendants_iff hT hc).1 hn
    obtain ⟨y, hy, -⟩ := TransGen.head'_iff.1 hmember
    exact ⟨hkind, hy.hasSubject⟩
  exact Store.length_le_of_subjects (Steps.nodup_reached _) hsubjects

/-- **Descendants are the breadth-first closure.** On every graph the descendants of a class are the
other terms from which parents and types lead to it, each once, and none stands before a nearer one.
There are no more of them than subjects. -/
theorem descendants_breadth_first (T : Taxonomy) (hT : T.store.Unambiguous) (c : Term)
    (hc : c.isResource) :
    (∀ n : Node, n ∈ T.descendants (.ofClass c) ↔
      n.kind = .classNode ∧ n.term ≠ c ∧ TransGen T.MemberOf n.term c) ∧
      (T.descendants (.ofClass c)).Nodup ∧
      (T.descendants (.ofClass c)).Pairwise (fun m n =>
        distance T.MemberOf m.term c ≤ distance T.MemberOf n.term c) ∧
      (T.descendants (.ofClass c)).length ≤
        (distinct (T.store.triples.map Triple.subject)).length :=
  ⟨fun _ => mem_descendants_iff hT hc, Steps.nodup_reached _, pairwise_descendants hT hc,
    length_descendants_le hT hc⟩

/-- Houses are buildings and cottages are houses, and all buildings are declared cottages again. One
house is known by name. -/
def village : Taxonomy where
  store := .ofList
    [⟨.iri "http://x/o#Building", Rdf.type, .iri Rdfs.classType⟩,
     ⟨.iri "http://x/o#House", Rdf.type, .iri Rdfs.classType⟩,
     ⟨.iri "http://x/o#Cottage", Rdf.type, .iri Rdfs.classType⟩,
     ⟨.iri "http://x/o#Building", Rdfs.subClassOf, .iri "http://x/o#Cottage"⟩,
     ⟨.iri "http://x/o#House", Rdfs.subClassOf, .iri "http://x/o#Building"⟩,
     ⟨.iri "http://x/o#Cottage", Rdfs.subClassOf, .iri "http://x/o#House"⟩,
     ⟨.iri "http://x/o#myHouse", Rdf.type, .iri "http://x/o#House"⟩]
  namespaces := .empty

theorem unambiguous_village : village.store.Unambiguous := by decide

theorem descendants_village : village.descendants (.ofClass (.iri "http://x/o#Building")) =
    [.ofClass (.iri "http://x/o#House"), .ofClass (.iri "http://x/o#Cottage"),
     .ofClass (.iri "http://x/o#myHouse")] := by
  let Building : Node := .ofClass (.iri "http://x/o#Building")
  let House : Node := .ofClass (.iri "http://x/o#House")
  let Cottage : Node := .ofClass (.iri "http://x/o#Cottage")
  let myHouse : Node := .ofClass (.iri "http://x/o#myHouse")
  have hBuilding : village.memberSteps.next Building = [House] := by decide
  have hHouse : village.memberSteps.next House = [Cottage, myHouse] := by decide
  have hCottage : village.memberSteps.next Cottage = [Building] := by decide
  have hmyHouse : village.memberSteps.next myHouse = [] := by decide
  have hkey : village.memberSteps.key = Node.key := rfl
  have hkeys : [myHouse, Cottage, House, Building].Pairwise fun m n => m.key ≠ n.key := by
    decide +kernel
  simp at hkeys
  show village.memberSteps.reached Building = [House, Cottage, myHouse]
  simp [Steps.reached, Steps.breadthFirst, hBuilding, hHouse, hCottage, hmyHouse, hkey, hkeys]

/-- Over the loop and a type the buildings have three descendants, the houses first. -/
theorem village_descendants :
    village.store.Unambiguous ∧ (Term.iri "http://x/o#Building").isResource ∧
      village.descendants (.ofClass (.iri "http://x/o#Building")) =
        [.ofClass (.iri "http://x/o#House"), .ofClass (.iri "http://x/o#Cottage"),
         .ofClass (.iri "http://x/o#myHouse")] ∧
      TransGen village.MemberOf (.iri "http://x/o#myHouse") (.iri "http://x/o#Building") ∧
      distance village.MemberOf (.iri "http://x/o#House") (.iri "http://x/o#Building") ≤
        distance village.MemberOf (.iri "http://x/o#myHouse") (.iri "http://x/o#Building") := by
  obtain ⟨hmem, -, hpairwise, -⟩ :=
    descendants_breadth_first village unambiguous_village (.iri "http://x/o#Building") rfl
  rw [descendants_village] at hpairwise
  refine ⟨unambiguous_village, rfl, descendants_village, ?_, ?_⟩
  · exact ((hmem (.ofClass (.iri "http://x/o#myHouse"))).1 (by simp [descendants_village])).2.2
  · exact (List.pairwise_cons.1 hpairwise).1 (.ofClass (.iri "http://x/o#myHouse")) (by simp)

/-! ## Upwards -/

theorem pairwise_ancestors (hT : T.store.Unambiguous) (n : Node) :
    (T.ancestors n).Pairwise fun m m' =>
      distance T.RealParent n m ≤ distance T.RealParent n m' := by
  rcases identifiable_or_root hT n with hn | hroot
  · rw [← leads_parentSteps]
    exact Steps.pairwise_reached (faithfulOn_parentSteps hT) hn
  · rw [ancestors_of_root hroot]
    exact .nil

theorem length_ancestors_le (hT : T.store.Unambiguous) (n : Node) :
    (T.ancestors n).length ≤ (distinct (T.store.triples.map Triple.subject)).length := by
  have hsubjects : ∀ m ∈ T.ancestors n, m.kind = n.kind ∧ T.store.hasSubject m.term := by
    intro m hm
    have habove : T.Above n m := ((mem_ancestors_iff hT).1 hm).2
    obtain ⟨p, -, hp⟩ := TransGen.tail'_iff.1 habove
    exact ⟨habove.kind_eq, hp.hasSubject⟩
  exact Store.length_le_of_subjects (Steps.nodup_reached _) hsubjects

/-- **Ancestors are complete and the closest come first.** On every graph the ancestors of a class are
the other nodes to which real parents lead, each once, and none stands before one with a shorter path
of real parents. There are no more of them than subjects. -/
theorem ancestors_closest_first (T : Taxonomy) (hT : T.store.Unambiguous) (c : Term) :
    (∀ m : Node, m ∈ T.ancestors (.ofClass c) ↔ m ≠ .ofClass c ∧ T.Above (.ofClass c) m) ∧
      (T.ancestors (.ofClass c)).Nodup ∧
      (T.ancestors (.ofClass c)).Pairwise (fun m m' =>
        distance T.RealParent (.ofClass c) m ≤ distance T.RealParent (.ofClass c) m') ∧
      (T.ancestors (.ofClass c)).length ≤
        (distinct (T.store.triples.map Triple.subject)).length :=
  ⟨fun _ => mem_ancestors_iff hT, Steps.nodup_reached _, pairwise_ancestors hT _,
    length_ancestors_le hT _⟩

theorem ancestors_village : village.ancestors (.ofClass (.iri "http://x/o#Cottage")) =
    [.ofClass (.iri "http://x/o#House"), .ofClass (.iri "http://x/o#Building")] := by
  let Building : Node := .ofClass (.iri "http://x/o#Building")
  let House : Node := .ofClass (.iri "http://x/o#House")
  let Cottage : Node := .ofClass (.iri "http://x/o#Cottage")
  have hCottage : village.parentSteps.next Cottage = [House] := by decide
  have hHouse : village.parentSteps.next House = [Building] := by decide
  have hBuilding : village.parentSteps.next Building = [Cottage] := by decide +kernel
  have hkey : village.parentSteps.key = Node.key := rfl
  have hkeys : [Building, House, Cottage].Pairwise fun m n => m.key ≠ n.key := by decide
  simp at hkeys
  show village.parentSteps.reached Cottage = [House, Building]
  simp [Steps.reached, Steps.breadthFirst, hCottage, hHouse, hBuilding, hkey, hkeys]

/-- Around the loop a cottage is a house, and then a building. -/
theorem village_ancestors :
    village.store.Unambiguous ∧
      village.ancestors (.ofClass (.iri "http://x/o#Cottage")) =
        [.ofClass (.iri "http://x/o#House"), .ofClass (.iri "http://x/o#Building")] ∧
      village.Above (.ofClass (.iri "http://x/o#Cottage")) (.ofClass (.iri "http://x/o#Building")) ∧
      distance village.RealParent (.ofClass (.iri "http://x/o#Cottage"))
          (.ofClass (.iri "http://x/o#House")) ≤
        distance village.RealParent (.ofClass (.iri "http://x/o#Cottage"))
          (.ofClass (.iri "http://x/o#Building")) := by
  obtain ⟨hmem, -, hpairwise, -⟩ :=
    ancestors_closest_first village unambiguous_village (.iri "http://x/o#Cottage")
  rw [ancestors_village] at hpairwise
  refine ⟨unambiguous_village, ancestors_village, ?_, ?_⟩
  · exact ((hmem (.ofClass (.iri "http://x/o#Building"))).1 (by simp [ancestors_village])).2
  · exact (List.pairwise_cons.1 hpairwise).1 (.ofClass (.iri "http://x/o#Building")) (by simp)

end TaxonomyPress.Taxonomy
