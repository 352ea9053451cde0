import TaxonomyPress.Proofs.FirstParents
import TaxonomyPress.Proofs.Frame

/-!
# Documents of a class among unrelated facts

* `UnrelatedInsertion.fragment_eq` : the walk over blank nodes stays among terms that occur, so the
  fragment of the class is the same;
* `UnrelatedInsertion.classDocuments_eq` : so are all its documents, or it fails for the same reason;
* `Taxonomy.unrelated_facts_frame` : all that for unrelated facts anywhere among the others.
-/

namespace TaxonomyPress.Taxonomy

variable {T : Taxonomy} {c : Term}

theorem occurs_of_mem_blankObjects {s o : Term} (h : o ∈ T.blankObjects s) : T.Occurs c o := by
  obtain ⟨t, ht, rfl⟩ := List.mem_map.1 (List.mem_filter.1 h).1
  exact Or.inl (Store.object_mem_terms (Store.mem_outgoing.1 ht).1)

namespace UnrelatedInsertion

variable {after : Store} {new : List Triple} {settings : Settings}
  (h : T.UnrelatedInsertion after c new)

include h

theorem blankObjects_eq {s : Term} (hs : T.Occurs c s) :
    (T.withStore after).blankObjects s = T.blankObjects s := by
  unfold blankObjects
  rw [h.outgoing_eq hs]

theorem agreesOn_blankSteps :
    T.blankSteps.AgreesOn (T.withStore after).blankSteps fun s => T.Occurs c s where
  key_eq := rfl
  next_eq _ hs := h.blankObjects_eq hs
  closed _ _ _ ho := occurs_of_mem_blankObjects ho

theorem fragment_eq {n : Node} (hn : T.Described c n.term) :
    (T.withStore after).fragment settings n = T.fragment settings n := by
  have hqueue : ∀ s ∈ n.term :: T.store.subjects Rdfs.domain n.term, T.Occurs c s := by
    intro s hs
    rcases List.mem_cons.1 hs with rfl | hs
    · exact hn.occurs
    · exact (described_of_mem_subjects hs).occurs
  -- the walk over blank nodes comes to terms that occur only
  have hvisited : ∀ s ∈ T.blankSteps.breadthFirst [] (n.term :: T.store.subjects Rdfs.domain n.term),
      T.Occurs c s := fun _ hs =>
    Steps.closed_of_mem_breadthFirst h.agreesOn_blankSteps.closed hqueue hs
  have hsubjects : (T.withStore after).fragmentSubjects n = T.fragmentSubjects n := by
    unfold fragmentSubjects
    rw [h.subjects_eq hn, h.agreesOn_blankSteps.breadthFirst_eq hqueue]
    exact List.filter_congr fun s hs => h.hasSubject_eq (hvisited s hs)
  unfold fragment
  rw [hsubjects, List.map_congr_left fun s hs => by
    rw [h.outgoing_eq (hvisited s (List.mem_filter.1 hs).1)]]

theorem classDocuments_eq {n : Node} (hn : T.Described c n.term) :
    (T.withStore after).classDocuments settings n = T.classDocuments settings n := by
  unfold classDocuments
  simp only [h.lineages_eq hn.occurs, h.agreesOn.classBodies_eq hn,
    h.agreesOn.canonicalId_eq hn.occurs, h.agreesOn.lineageDocuments_eq hn, h.fragment_eq hn]

end UnrelatedInsertion

/-! ## The main result -/

/-- **Classes are resolved independently of unrelated facts.** Facts about terms that neither stand in
the graph nor are the class, and with values that the graph has no fact about and that are not the
class, change neither the record of the class nor its lineages nor its documents, wherever they stand
among the others. Where one of these fails, it fails for the same reason. -/
theorem unrelated_facts_frame (T : Taxonomy) (settings : Settings) (c : Term)
    {facts new : List Triple} (hsublist : T.store.triples.Sublist facts)
    (hperm : facts.Perm (T.store.triples ++ new))
    (hsubject : ∀ t ∈ new, t.subject ∉ T.store.terms ∧ t.subject ≠ c)
    (hobject : ∀ t ∈ new, (∀ u ∈ T.store.triples, u.subject ≠ t.object) ∧ t.object ≠ c) :
    let T' : Taxonomy := T.withStore (.ofList facts)
    let C : Node := .ofClass c
    T'.classRecord C = T.classRecord C ∧
      T'.lineages C = T.lineages C ∧
      T'.classDocuments settings C = T.classDocuments settings C := by
  intro T' C
  have hnew : ∀ t ∈ new, t ∉ T.store.triples := fun t ht hold =>
    (hsubject t ht).1 (Store.subject_mem_terms hold)
  have h : T.UnrelatedInsertion (.ofList facts) c (distinct new) := by
    refine ⟨Store.isInsertion_ofList hsublist hperm hnew, fun t ht => ?_, fun t ht => ?_⟩
    · exact not_or.2 (hsubject t (mem_distinct.1 ht))
    · obtain ⟨hnone, hne⟩ := hobject t (mem_distinct.1 ht)
      refine not_or.2 ⟨fun hold => ?_, hne⟩
      obtain ⟨u, hu, hut⟩ := Store.hasSubject_iff.1 hold
      exact hnone u hu hut
  have hC : T.Described c C.term := Or.inr rfl
  exact ⟨h.classRecord_eq hC, h.lineages_eq hC.occurs, h.classDocuments_eq hC⟩

/-- Cottages have an address. -/
def cottages : Taxonomy where
  store := .ofList
    [⟨.iri "http://x/o#Cottage", Rdf.type, .iri Rdfs.classType⟩,
     ⟨.iri "http://x/o#address", Rdfs.domain, .iri "http://x/o#Cottage"⟩,
     ⟨.iri "http://x/o#address", Rdfs.range, .iri "http://x/o#Text"⟩]
  namespaces := .empty

/-- What is said about sheds, one fact twice. -/
def shedFacts : List Triple :=
  [⟨.iri "http://x/o#Shed", Rdf.type, .iri Rdfs.classType⟩,
   ⟨.iri "http://x/o#Shed", Rdfs.label, .plain "shed"⟩,
   ⟨.iri "http://x/o#note", Rdfs.range, .iri "http://x/o#Text"⟩,
   ⟨.iri "http://x/o#Shed", Rdf.type, .iri Rdfs.classType⟩]

/-- The same graph with sheds among the cottages. -/
def cottageAndShedFacts : List Triple :=
  [⟨.iri "http://x/o#Shed", Rdf.type, .iri Rdfs.classType⟩,
   ⟨.iri "http://x/o#Cottage", Rdf.type, .iri Rdfs.classType⟩,
   ⟨.iri "http://x/o#Shed", Rdfs.label, .plain "shed"⟩,
   ⟨.iri "http://x/o#note", Rdfs.range, .iri "http://x/o#Text"⟩,
   ⟨.iri "http://x/o#address", Rdfs.domain, .iri "http://x/o#Cottage"⟩,
   ⟨.iri "http://x/o#Shed", Rdf.type, .iri Rdfs.classType⟩,
   ⟨.iri "http://x/o#address", Rdfs.range, .iri "http://x/o#Text"⟩]

/-- Sheds have types and ranges in common with cottages, and yet leave them alone. -/
theorem cottages_among_sheds :
    cottages.store.triples.Sublist cottageAndShedFacts ∧
      cottageAndShedFacts.Perm (cottages.store.triples ++ shedFacts) ∧
      (∀ t ∈ shedFacts, t.subject ∉ cottages.store.terms ∧
        t.subject ≠ .iri "http://x/o#Cottage") ∧
      (∀ t ∈ shedFacts, (∀ u ∈ cottages.store.triples, u.subject ≠ t.object) ∧
        t.object ≠ .iri "http://x/o#Cottage") ∧
      (cottages.withStore (.ofList cottageAndShedFacts)).lineages
        (.ofClass (.iri "http://x/o#Cottage")) = .ok [["Cottage"]] ∧
      (cottages.withStore (.ofList cottageAndShedFacts)).classDocuments {}
          (.ofClass (.iri "http://x/o#Cottage")) =
        cottages.classDocuments {} (.ofClass (.iri "http://x/o#Cottage")) := by
  have hsublist : cottages.store.triples.Sublist cottageAndShedFacts := by decide
  have hperm : cottageAndShedFacts.Perm (cottages.store.triples ++ shedFacts) := by decide
  have hsubject : ∀ t ∈ shedFacts, t.subject ∉ cottages.store.terms ∧
      t.subject ≠ .iri "http://x/o#Cottage" := by decide
  have hobject : ∀ t ∈ shedFacts, (∀ u ∈ cottages.store.triples, u.subject ≠ t.object) ∧
      t.object ≠ .iri "http://x/o#Cottage" := by decide
  have hmain := unrelated_facts_frame cottages {} _ hsublist hperm hsubject hobject
  have hroot : cottages.realParents (.ofClass (.iri "http://x/o#Cottage")) = [] := by decide
  have htitle : cottages.title (.ofClass (.iri "http://x/o#Cottage")) = .ok "Cottage" := by
    decide +kernel
  exact ⟨hsublist, hperm, hsubject, hobject, hmain.2.1.trans (lineages_of_root hroot htitle),
    hmain.2.2⟩

end TaxonomyPress.Taxonomy
