import TaxonomyPress.Proofs.Agreement
import TaxonomyPress.Proofs.Failures
import TaxonomyPress.Proofs.Insertion
import TaxonomyPress.Proofs.Publication

/-!
# Dangling parents

A declared parent that the graph has no fact about is a placeholder.

* `Taxonomy.DanglingExtension` : a store has more edges to parents, all of them dangling;
* `DanglingExtension.realTargets_eq` : they lead to no real parent, wherever they stand;
* `DanglingExtension.agreesOn` : no class and nothing below one is at their end, so nothing that is
  resolved sees them;
* `Taxonomy.dangling_parents_inert` : records, failures and documents stay, and of the ontology
  fragments the places.
-/

namespace TaxonomyPress

/-- What a document is without the body of an ontology fragment. -/
def Document.outline (d : Document) : DocumentKind × UnixPath × Option Json :=
  (d.kind, d.path, if d.kind = .ontology then none else some d.body)

namespace Taxonomy

variable {T : Taxonomy}

/-- Facts that give types and parents lead from `s` to `o`. -/
def StandsBelow (T : Taxonomy) : Term → Term → Prop :=
  Relation.ReflTransGen fun s o =>
    ⟨s, Rdfs.subClassOf, o⟩ ∈ T.store.triples ∨ ⟨s, Rdf.type, o⟩ ∈ T.store.triples

theorem StandsBelow.hasSubject {s : Term} {n : Node} (h : T.StandsBelow s n.term)
    (hn : n ∈ T.classes) : T.store.hasSubject s := by
  rcases Relation.ReflTransGen.cases_head h with rfl | ⟨o, hfirst | hfirst, -⟩
  · exact (kind_and_subject_of_mem_classes hn).2
  · exact Store.hasSubject_iff.2 ⟨_, hfirst, rfl⟩
  · exact Store.hasSubject_iff.2 ⟨_, hfirst, rfl⟩

/-- The store `after` has, besides the facts of `T`, edges from subjects to parents that are literals or
have no facts of their own. A literal among these is no class and stands below none. -/
structure DanglingExtension (T : Taxonomy) (after : Store) (edges : List Triple) : Prop where
  extension : T.store.IsExtension after edges
  predicate_eq : ∀ t ∈ edges, t.predicate = Rdfs.subClassOf
  hasSubject : ∀ t ∈ edges, T.store.hasSubject t.subject
  dangling : ∀ t ∈ edges, t.object.isResource → ¬ T.store.hasSubject t.object
  outside : ∀ t ∈ edges, ∀ n ∈ T.classes, ¬ T.StandsBelow t.object n.term

namespace DanglingExtension

variable {after : Store} {edges : List Triple} {settings : Settings}
  (h : T.DanglingExtension after edges)

include h

/-! ## Questions -/

theorem objects_eq {s : Term} {predicate : String} (hpredicate : predicate ≠ Rdfs.subClassOf) :
    after.objects s predicate = T.store.objects s predicate :=
  h.extension.objects fun t ht _ heq => hpredicate (heq ▸ h.predicate_eq t ht)

theorem hasSubject_eq (s : Term) : after.hasSubject s = T.store.hasSubject s :=
  h.extension.hasSubject fun t ht heq => heq ▸ h.hasSubject t ht

theorem subjects_eq {o : Term} (ho : ∀ t ∈ edges, t.object ≠ o) (predicate : String) :
    after.subjects predicate o = T.store.subjects predicate o := by
  refine congrArg (List.map _) (h.extension.matching fun t ht haccepts => ho t ht ?_)
  exact (Store.Pattern.accepts_iff.1 haccepts).2.2 o rfl

/-- A dangling edge is left out, before or behind repetitions. -/
theorem realTargets_eq (s : Term) (predicate : String) :
    (T.withStore after).realTargets s predicate = T.realTargets s predicate := by
  have hreal : ∀ o : Term, (o ≠ s && o.isResource && after.hasSubject o) =
      (o ≠ s && o.isResource && T.store.hasSubject o) := fun o => by rw [h.hasSubject_eq]
  unfold realTargets
  simp only [hreal, filter_distinct]
  refine congrArg distinct ?_
  rw [← List.filterMap_eq_filter]
  refine h.extension.filterMap_objects fun t ht _ _ => Option.guard_eq_none_iff.2 ?_
  cases hresource : t.object.isResource with
  | false => simp
  | true => simp [h.dangling t ht hresource]

theorem classes_eq : (T.withStore after).classes = T.classes := by
  have hmatching : after.matching { predicate := some Rdf.type } =
      T.store.matching { predicate := some Rdf.type } := by
    refine h.extension.matching fun t ht haccepts => ?_
    have heq : t.predicate = Rdf.type := (Store.Pattern.accepts_iff.1 haccepts).2.1 _ rfl
    exact absurd ((h.predicate_eq t ht).symm.trans heq) (by decide)
  unfold classes
  rw [hmatching]

/-! ## Terms at the end of no edge -/

theorem described_of_mem_realParents {n p : Node} (hp : p ∈ T.realParents n) :
    ∀ t ∈ edges, t.object ≠ p.term := by
  intro t ht heq
  obtain ⟨-, -, -, hresource, hsubject⟩ := mem_realParents_iff.1 hp
  exact h.dangling t ht (heq ▸ hresource) (heq ▸ hsubject)

/-! ## What is resolved -/

/-- No class and nothing below one is at the end of an edge, so nothing that is resolved sees it. -/
theorem agreesOn : T.AgreesOn after (fun _ => True) (fun s => ∀ t ∈ edges, t.object ≠ s)
    fun s => ∀ t ∈ edges, ¬ T.StandsBelow t.object s where
  known_of_described _ := trivial
  described_of_listed hs t ht heq := hs t ht (heq ▸ .refl)
  known_of_mem_objects _ := trivial
  known_of_mem_subjects _ := trivial
  described_of_mem_realParents := h.described_of_mem_realParents
  listed_of_mem_below hn hm t ht hbelow := hn t ht (hbelow.tail (mem_below_iff.1 hm).2)
  objects_eq _ := h.objects_eq
  subjects_eq := h.subjects_eq
  hasSubject_eq _ := h.hasSubject_eq _
  realTargets_eq _ := h.realTargets_eq _
  restrictionEntries_eq {s} _ := by
    unfold Store.outgoing
    rw [Store.matching_eq_filter, Store.matching_eq_filter, List.filterMap_filter,
      List.filterMap_filter]
    refine h.extension.filterMap_triples fun t ht => ?_
    have hentry : restrictionEntry t = none := by
      unfold restrictionEntry
      rw [h.predicate_eq t ht]
      rfl
    rw [hentry, ite_self]

theorem resolveAll_eq : (T.withStore after).resolveAll = T.resolveAll := by
  have heach : ∀ nodes ⊆ T.classes,
      (T.withStore after).resolveEach nodes = T.resolveEach nodes := by
    intro nodes hnodes
    induction nodes with
    | nil => rfl
    | cons n nodes ih =>
      have hn : n ∈ T.classes := hnodes List.mem_cons_self
      have hrest := ih fun m hm => hnodes (List.mem_cons_of_mem n hm)
      unfold resolveEach at hrest ⊢
      rw [List.foldr_cons, List.foldr_cons, hrest,
        h.agreesOn.classRecord_eq fun t ht => h.outside t ht n hn]
  unfold resolveAll
  rw [h.classes_eq, heach T.classes (List.Subset.refl _)]

/-! ## What is built -/

/-- A class is built as before, but for the body of its fragment. -/
theorem alike_classDocuments {n : Node} (hn : n ∈ T.classes) :
    Alike (fun documents' documents =>
        documents'.map Document.outline = documents.map Document.outline)
      ((T.withStore after).classDocuments settings n) (T.classDocuments settings n) := by
  have hlisted : ∀ t ∈ edges, ¬ T.StandsBelow t.object n.term := fun t ht => h.outside t ht n hn
  unfold classDocuments
  rw [h.agreesOn.lineages_eq trivial, h.agreesOn.classBodies_eq hlisted,
    h.agreesOn.canonicalId_eq trivial]
  simp only [h.agreesOn.lineageDocuments_eq (h.agreesOn.described_of_listed hlisted)]
  refine .bind_left _ fun lineages _ => .bind_left _ fun bodies _ => .bind_left _ fun id _ => ?_
  exact .ok (by simp [Document.outline])

/-- So it adds the same to a build. -/
theorem outline_contribution {n : Node} (hn : n ∈ T.classes) :
    (((T.withStore after).contribution settings n).documents.map Document.outline =
        (T.contribution settings n).documents.map Document.outline) ∧
      ((T.withStore after).contribution settings n).entry = (T.contribution settings n).entry ∧
      ((T.withStore after).contribution settings n).failure =
        (T.contribution settings n).failure := by
  have halike : Alike _ ((T.withStore after).classDocuments settings n)
      (T.classDocuments settings n) := h.alike_classDocuments hn
  have hentry : Taxonomy.rootEntry? (T.withStore after)
      ⟨n, (T.withStore after).classDocuments settings n⟩ =
        T.rootEntry? ⟨n, T.classDocuments settings n⟩ :=
    rootEntry?_congr (h.agreesOn.realParents_eq trivial) rfl rfl halike.fails_iff.symm
  unfold contribution
  generalize (T.withStore after).classDocuments settings n = x' at halike hentry ⊢
  generalize T.classDocuments settings n = x at halike hentry ⊢
  cases halike with
  | error cause => exact ⟨rfl, hentry, rfl⟩
  | ok houtline => exact ⟨houtline, hentry, rfl⟩

theorem failures_build_eq : ((T.withStore after).build settings).failures =
    (T.build settings).failures := by
  rw [failures_eq, failures_eq, h.classes_eq]
  exact List.filterMap_congr fun n hn => (h.outline_contribution hn).2.2

theorem rootDocument_eq : (T.withStore after).rootDocument settings = T.rootDocument settings := by
  have hentries : (T.withStore after).rootEntries settings = T.rootEntries settings := by
    rw [rootEntries_eq, rootEntries_eq, h.classes_eq]
    refine congrArg (fun entries => sortWith _ (distinct entries)) ?_
    exact List.filterMap_congr fun n hn => (h.outline_contribution hn).2.1
  unfold rootDocument
  rw [hentries]

theorem outline_documents_build :
    ((T.withStore after).build settings).documents.map Document.outline =
      (T.build settings).documents.map Document.outline := by
  rw [documents_build, documents_build, h.classes_eq, h.rootDocument_eq, List.map_append,
    List.map_append, List.map_flatMap, List.map_flatMap]
  refine congrArg (· ++ _) (List.flatMap_congr fun n hn => ?_)
  exact (h.outline_contribution hn).1

end DanglingExtension

/-! ## The main result -/

/-- **Dangling parents are inert.** Edges from subjects of a graph to parents that are literals or not
subjects of it, wherever they stand among its facts, change neither the records of its classes nor what
fails, and of the documents they change the bodies of ontology fragments only. A literal may even have
facts about it, as long as it is neither a class nor below one. -/
theorem dangling_parents_inert (T : Taxonomy) (settings : Settings) {facts edges : List Triple}
    (hsublist : T.store.triples.Sublist facts) (hperm : facts.Perm (T.store.triples ++ edges))
    (hedge : ∀ t ∈ edges, t.predicate = Rdfs.subClassOf ∧ T.store.hasSubject t.subject)
    (hdangling : ∀ t ∈ edges, t.object.isResource = false ∨ T.store.hasSubject t.object = false)
    (houtside : ∀ t ∈ edges, t.object.isResource = false →
      ∀ n ∈ T.classes, ¬ T.StandsBelow t.object n.term) :
    let T' : Taxonomy := T.withStore (.ofList facts)
    T'.resolveAll = T.resolveAll ∧
      (T'.build settings).failures = (T.build settings).failures ∧
      (T'.build settings).documents.map Document.outline =
        (T.build settings).documents.map Document.outline := by
  intro T'
  have h : T.DanglingExtension (.ofList facts) edges := by
    refine ⟨Store.isExtension_ofList hsublist hperm, fun t ht => (hedge t ht).1,
      fun t ht => (hedge t ht).2, fun t ht hresource => ?_, fun t ht n hn hbelow => ?_⟩
    · have hsubject := (hdangling t ht).resolve_left (by rw [hresource]; exact nofun)
      rw [hsubject]
      exact nofun
    · rcases hdangling t ht with hliteral | hsubject
      · exact houtside t ht hliteral n hn hbelow
      · have hsubject' := hbelow.hasSubject hn
        rw [hsubject] at hsubject'
        cases hsubject'
  exact ⟨h.resolveAll_eq, h.failures_build_eq, h.outline_documents_build⟩

/-- Cabins are huts. -/
def cabins : Taxonomy where
  store := .ofList
    [⟨.iri "http://x/o#Hut", Rdf.type, .iri Rdfs.classType⟩,
     ⟨.iri "http://x/o#Cabin", Rdf.type, .iri Rdfs.classType⟩,
     ⟨.iri "http://x/o#Cabin", Rdfs.subClassOf, .iri "http://x/o#Hut"⟩]
  namespaces := .empty

/-- Parents of another graph, a literal, and a parent declared twice. -/
def danglingCabinEdges : List Triple :=
  [⟨.iri "http://x/o#Cabin", Rdfs.subClassOf, .iri "http://y/z#Building"⟩,
   ⟨.iri "http://x/o#Cabin", Rdfs.subClassOf, .plain "hut"⟩,
   ⟨.iri "http://x/o#Hut", Rdfs.subClassOf, .iri "http://y/z#Building"⟩,
   ⟨.iri "http://x/o#Cabin", Rdfs.subClassOf, .iri "http://y/z#Building"⟩]

/-- The facts about cabins, the real parent behind a dangling one. -/
def danglingCabinFacts : List Triple :=
  [⟨.iri "http://x/o#Hut", Rdf.type, .iri Rdfs.classType⟩,
   ⟨.iri "http://x/o#Cabin", Rdfs.subClassOf, .iri "http://y/z#Building"⟩,
   ⟨.iri "http://x/o#Cabin", Rdf.type, .iri Rdfs.classType⟩,
   ⟨.iri "http://x/o#Cabin", Rdfs.subClassOf, .plain "hut"⟩,
   ⟨.iri "http://x/o#Cabin", Rdfs.subClassOf, .iri "http://x/o#Hut"⟩,
   ⟨.iri "http://x/o#Hut", Rdfs.subClassOf, .iri "http://y/z#Building"⟩,
   ⟨.iri "http://x/o#Cabin", Rdfs.subClassOf, .iri "http://y/z#Building"⟩]

/-- Cabins stay huts. -/
theorem cabins_stay_huts :
    cabins.store.triples.Sublist danglingCabinFacts ∧
      danglingCabinFacts.Perm (cabins.store.triples ++ danglingCabinEdges) ∧
      (∀ t ∈ danglingCabinEdges, t.predicate = Rdfs.subClassOf ∧
        cabins.store.hasSubject t.subject) ∧
      (∀ t ∈ danglingCabinEdges, t.object.isResource = false ∨
        cabins.store.hasSubject t.object = false) ∧
      (∀ t ∈ danglingCabinEdges, t.object.isResource = false →
        ∀ n ∈ cabins.classes, ¬ cabins.StandsBelow t.object n.term) ∧
      (cabins.withStore (.ofList danglingCabinFacts)).resolveAll = cabins.resolveAll := by
  have hsublist : cabins.store.triples.Sublist danglingCabinFacts := by decide +kernel
  have hperm : danglingCabinFacts.Perm (cabins.store.triples ++ danglingCabinEdges) := by
    decide +kernel
  have hedge : ∀ t ∈ danglingCabinEdges, t.predicate = Rdfs.subClassOf ∧
      cabins.store.hasSubject t.subject := by decide +kernel
  have hdangling : ∀ t ∈ danglingCabinEdges, t.object.isResource = false ∨
      cabins.store.hasSubject t.object = false := by decide +kernel
  have hfree : ∀ t ∈ danglingCabinEdges, cabins.store.hasSubject t.object = false := by
    decide +kernel
  have houtside : ∀ t ∈ danglingCabinEdges, t.object.isResource = false →
      ∀ n ∈ cabins.classes, ¬ cabins.StandsBelow t.object n.term := by
    intro t ht _ n hn hbelow
    have hsubject := hbelow.hasSubject hn
    rw [hfree t ht] at hsubject
    cases hsubject
  exact ⟨hsublist, hperm, hedge, hdangling, houtside,
    (dangling_parents_inert cabins {} hsublist hperm hedge hdangling houtside).1⟩

/-! ## Literals with a parent -/

/-- A literal is declared to lie below a class. -/
def literalMember : Taxonomy where
  store := .ofList
    [⟨.iri "http://x/o#Hut", Rdf.type, .iri Rdfs.classType⟩,
     ⟨.plain "shelter", Rdfs.subClassOf, .iri "http://x/o#Hut"⟩,
     ⟨.iri "http://x/o#Cabin", Rdfs.label, .plain "cabin"⟩]
  namespaces := .empty

/-- A class below the literal. -/
def edgeToLiteral : Triple :=
  ⟨.iri "http://x/o#Cabin", Rdfs.subClassOf, .plain "shelter"⟩

/-- Descendants are found through a literal, although it is no parent. -/
theorem literal_parent_adds_descendant :
    literalMember.store.hasSubject edgeToLiteral.subject ∧
      edgeToLiteral.object.isResource = false ∧
      (literalMember.withStore (.ofList (literalMember.store.triples ++ [edgeToLiteral]))).resolveAll ≠
        literalMember.resolveAll := by
  let T : Taxonomy := literalMember
  let T' : Taxonomy := T.withStore (.ofList (T.store.triples ++ [edgeToLiteral]))
  let Hut : Node := .ofClass (.iri "http://x/o#Hut")
  let Cabin : Node := .ofClass (.iri "http://x/o#Cabin")
  let shelter : Node := .ofClass (.plain "shelter")
  have hdescendants : T.descendants Hut = [shelter] := by
    have hHut : T.memberSteps.next Hut = [shelter] := by decide +kernel
    have hshelter : T.memberSteps.next shelter = [] := by decide +kernel
    have hkey : T.memberSteps.key shelter ∉ [T.memberSteps.key Hut] := by decide +kernel
    rw [descendants, Steps.reached, hHut, Steps.breadthFirst, dif_neg hkey, hshelter]
    simp [Steps.breadthFirst]
  have hdescendants' : T'.descendants Hut = [shelter, Cabin] := by
    have hHut : T'.memberSteps.next Hut = [shelter] := by decide +kernel
    have hshelter : T'.memberSteps.next shelter = [Cabin] := by decide +kernel
    have hCabin : T'.memberSteps.next Cabin = [] := by decide +kernel
    have hkey : T'.memberSteps.key shelter ∉ [T'.memberSteps.key Hut] := by decide +kernel
    have hkeyCabin : T'.memberSteps.key Cabin ∉
        [T'.memberSteps.key shelter, T'.memberSteps.key Hut] := by decide +kernel
    rw [descendants, Steps.reached, hHut, Steps.breadthFirst, dif_neg hkey, hshelter,
      List.nil_append, Steps.breadthFirst, dif_neg hkeyCabin, hCabin]
    simp [Steps.breadthFirst]
  have hclasses : T.classes = [Hut] := by decide +kernel
  have hclasses' : T'.classes = [Hut] := by decide +kernel
  have hroot : T.realParents Hut = [] := by decide +kernel
  have htitle : T.title Hut = .ok "Hut" := by decide +kernel
  have hid : T.canonicalId Hut = .ok "o:Hut" :=
    canonicalId_eq_ok_iff.2 ⟨"o", "Hut", ["Hut"], by decide,
      canonicalTitles_of_root hroot htitle, by decide⟩
  have hnone : T.allProperties Hut = [] := by
    rw [allProperties, ancestors_of_root hroot]
    decide +kernel
  have hrecord : ¬ Fails (T.classRecord Hut) := by
    rw [fails_classRecord_iff, hid, hnone]
    simp [not_fails_ok]
  obtain ⟨record, hrecord⟩ := not_fails_iff.1 hrecord
  refine ⟨by decide, rfl, fun heq => ?_⟩
  have hrecords : T'.resolveAll.records = [record] := by
    rw [heq, resolveAll, hclasses, resolveEach, List.foldr_cons, hrecord]
    rfl
  rw [resolveAll, hclasses', resolveEach, List.foldr_cons] at hrecords
  cases hrecord' : T'.classRecord Hut with
  | error cause =>
    rw [hrecord'] at hrecords
    cases hrecords
  | ok record' =>
    rw [hrecord'] at hrecords
    obtain rfl : record' = record := (List.cons.inj hrecords).1
    have hids := (fields_of_classRecord hrecord').2.2.symm.trans (fields_of_classRecord hrecord).2.2
    rw [hdescendants, hdescendants'] at hids
    have hlength := congrArg List.length hids
    simp [sortWith] at hlength

end Taxonomy

end TaxonomyPress
