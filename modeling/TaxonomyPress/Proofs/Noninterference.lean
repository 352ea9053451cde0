import TaxonomyPress.Proofs.Ancestors
import TaxonomyPress.Proofs.Insertion
import TaxonomyPress.Taxonomy.Annotation

/-!
# Annotations for unrelated classes

* `Taxonomy.scopes_congr` : the scopes that apply hang on the edges of the graph only;
* `Taxonomy.AnnotationInsertion` : a store has one more scoped annotation of a property;
* `AnnotationInsertion.scopes_eq` : edges, and with them the scopes that apply, stay the same;
* `AnnotationInsertion.applicable_eq` : under scopes without the new one, so do the texts that apply;
* `Taxonomy.unrelated_annotation_noninterference` : so the annotation has no influence.
-/

namespace TaxonomyPress.Taxonomy

/-- The predicates with scoped values. -/
def annotatingPredicates : List String := [Rdfs.label, Rdfs.comment, Pot.contextName]

/-- The predicates whose values say which scopes apply. -/
def edgePredicates : List String := [Rdfs.subClassOf, Rdfs.subPropertyOf, Rdfs.domain]

theorem parentPredicate_mem_edgePredicates (kind : NodeKind) :
    parentPredicate kind ∈ edgePredicates := by
  cases kind <;> decide

/-- With the same edges, and the same known of what they lead to as subjects, the same scopes apply. -/
theorem scopes_congr {T : Taxonomy} {after : Store}
    (hobjects : ∀ q ∈ edgePredicates, ∀ s, after.objects s q = T.store.objects s q)
    (hsubjects : ∀ q ∈ edgePredicates, ∀ s, ∀ o ∈ T.store.objects s q,
      after.hasSubject o = T.store.hasSubject o) (p : Node) (selected : Option Node) :
    (T.withStore after).scopes p selected = T.scopes p selected := by
  cases selected with
  | some c =>
    have hparents : (T.withStore after).realParents = T.realParents := by
      funext n
      have hkind := parentPredicate_mem_edgePredicates n.kind
      exact congrArg (List.map _)
        (realTargets_congr (hobjects _ hkind n.term) (hsubjects _ hkind n.term))
    have hancestors : (T.withStore after).ancestors c = T.ancestors c := by
      unfold ancestors parentSteps
      congr
    show (c :: _).map _ = (c :: _).map _
    rw [hancestors]
  | none =>
    show (after.objects p.term Rdfs.domain).map _ = _
    rw [hobjects _ (by decide)]
    rfl

/-- The facts of an annotation of `p` that the node `node` describes. -/
def annotationFacts (p : Term) (predicate : String) (node scope : Term) (text : Literal) :
    List Triple :=
  [⟨p, predicate, node⟩, ⟨node, Pot.scope, scope⟩, ⟨node, Rdf.value, .literal text⟩]

theorem mem_annotationFacts_iff {p node scope : Term} {predicate : String} {text : Literal}
    {t : Triple} : t ∈ annotationFacts p predicate node scope text ↔
      t = ⟨p, predicate, node⟩ ∨ t = ⟨node, Pot.scope, scope⟩ ∨
        t = ⟨node, Rdf.value, .literal text⟩ := by
  simp [annotationFacts]

/-- What a value of an annotating predicate comes to under `scopes`. -/
def rankedText (T : Taxonomy) (scopes : List String) (value : Term) : Option (Nat × Literal) :=
  (T.annotationOf value).bind fun a => (scopeRank scopes a.scope).map (·, a.text)

theorem applicable_eq_filterMap (T : Taxonomy) (p : Node) (predicate : String)
    (scopes : List String) : T.applicable p predicate scopes =
      (T.store.objects p.term predicate).filterMap (T.rankedText scopes) := by
  unfold applicable annotations
  rw [List.filterMap_filterMap]
  rfl

theorem scopeRank_eq_none {scopes : List String} {scope : String} (h : scope ∉ scopes) :
    scopeRank scopes (some scope) = none :=
  List.idxOf?_eq_none_iff.2 h

/-- The store `after` has one more annotation of `p` than `T`, which a blank node of its own
describes. -/
structure AnnotationInsertion (T : Taxonomy) (after : Store) (p : Node) (predicate label : String)
    (scope : Term) (text : Literal) : Prop where
  insertion : T.store.IsInsertion after
    (annotationFacts p.term predicate (.blank label) scope text)
  predicate_mem : predicate ∈ annotatingPredicates
  hasSubject : T.store.hasSubject p.term
  fresh : .blank label ∉ T.store.terms

namespace AnnotationInsertion

variable {T : Taxonomy} {after : Store} {p : Node} {predicate label : String} {scope : Term}
  {text : Literal} (h : T.AnnotationInsertion after p predicate label scope text)

include h

/-! ## The new node -/

theorem blank_ne_subject {t : Triple} (ht : t ∈ T.store.triples) : t.subject ≠ .blank label :=
  fun heq => h.fresh (heq ▸ Store.subject_mem_terms ht)

theorem blank_ne_object {t : Triple} (ht : t ∈ T.store.triples) : t.object ≠ .blank label :=
  fun heq => h.fresh (heq ▸ Store.object_mem_terms ht)

theorem term_ne_blank : p.term ≠ .blank label := by
  obtain ⟨t, ht, hp⟩ := Store.hasSubject_iff.1 h.hasSubject
  rw [← hp]
  exact h.blank_ne_subject ht

theorem predicate_ne : predicate ≠ Pot.scope ∧ predicate ≠ Rdf.value ∧
    predicate ∉ edgePredicates := by
  have hne : ∀ q ∈ annotatingPredicates, q ≠ Pot.scope ∧ q ≠ Rdf.value ∧ q ∉ edgePredicates := by
    decide
  exact hne predicate h.predicate_mem

/-! ## Edges and scopes -/

/-- Values of other predicates stay. -/
theorem objects_eq {s : Term} {q : String} (hpredicate : q ≠ predicate) (hscope : q ≠ Pot.scope)
    (hvalue : q ≠ Rdf.value) : after.objects s q = T.store.objects s q := by
  apply h.insertion.isExtension.objects
  intro t ht _
  rcases mem_annotationFacts_iff.1 ht with rfl | rfl | rfl
  · exact hpredicate.symm
  · exact hscope.symm
  · exact hvalue.symm

/-- No old term becomes a subject. -/
theorem hasSubject_eq {s : Term} (hs : s ≠ .blank label) :
    after.hasSubject s = T.store.hasSubject s := by
  apply h.insertion.isExtension.hasSubject
  intro t ht hsubject
  rcases mem_annotationFacts_iff.1 ht with rfl | rfl | rfl
  · exact hsubject ▸ h.hasSubject
  · exact absurd hsubject.symm hs
  · exact absurd hsubject.symm hs

/-- The scopes that apply stay the same. -/
theorem scopes_eq (q : Node) (selected : Option Node) :
    (T.withStore after).scopes q selected = T.scopes q selected := by
  have hedges : ∀ q ∈ edgePredicates, q ≠ Pot.scope ∧ q ≠ Rdf.value := by decide
  refine scopes_congr (fun q hq s => ?_) (fun q _ s o ho => ?_) q selected
  · have hpredicate : q ≠ predicate := fun heq => h.predicate_ne.2.2 (heq ▸ hq)
    exact h.objects_eq hpredicate (hedges q hq).1 (hedges q hq).2
  · exact h.hasSubject_eq (h.blank_ne_object (Store.mem_objects.1 ho))

/-! ## Texts -/

/-- What other nodes describe stays. -/
theorem annotationOf_eq {value : Term} (hvalue : value ≠ .blank label) :
    (T.withStore after).annotationOf value = T.annotationOf value := by
  obtain ⟨hscope, htext, -⟩ := h.predicate_ne
  have hobjects : ∀ q, predicate ≠ q → after.objects value q = T.store.objects value q := by
    intro q hq
    apply h.insertion.isExtension.objects
    intro t ht hsubject
    rcases mem_annotationFacts_iff.1 ht with rfl | rfl | rfl
    · exact hq
    · exact absurd hsubject.symm hvalue
    · exact absurd hsubject.symm hvalue
  exact annotationOf_congr (hobjects _ hscope) (hobjects _ htext)

/-- The new node has the new scope only. -/
theorem scope_of_structuredAnnotation {a : Annotation}
    (ha : structuredAnnotation (T.withStore after) (.blank label) = some a) :
    a.scope = some (T.scopeIdentifier scope) := by
  unfold structuredAnnotation at ha
  obtain ⟨o, ho, ha⟩ := Option.bind_eq_some_iff.1 ha
  obtain ⟨l, -, ha⟩ := Option.bind_eq_some_iff.1 ha
  obtain rfl : _ = a := Option.some.inj ha
  have hmem : o ∈ after.objects (.blank label) Pot.scope := List.mem_of_mem_head? ho
  rcases h.insertion.isExtension.mem_objects.1 hmem with hold | hnew
  · exact absurd rfl (h.blank_ne_subject (Store.mem_objects.1 hold))
  · rcases mem_annotationFacts_iff.1 hnew with heq | heq | heq
    · exact absurd (congrArg Triple.subject heq).symm h.term_ne_blank
    · obtain rfl : o = scope := congrArg Triple.object heq
      rfl
    · have hpredicate : Pot.scope = Rdf.value := congrArg Triple.predicate heq
      exact absurd hpredicate (by decide)

theorem rankedText_blank {scopes : List String} (hscopes : T.scopeIdentifier scope ∉ scopes) :
    (T.withStore after).rankedText scopes (.blank label) = none := by
  refine Option.bind_eq_none_iff.2 fun a ha => ?_
  rw [h.scope_of_structuredAnnotation ha, scopeRank_eq_none hscopes]
  rfl

theorem rankedText_eq {scopes : List String} {value : Term} (hvalue : value ≠ .blank label) :
    (T.withStore after).rankedText scopes value = T.rankedText scopes value := by
  unfold rankedText
  rw [h.annotationOf_eq hvalue]

/-- Under scopes without the new one, the texts that apply stay the same. -/
theorem applicable_eq {scopes : List String} (hscopes : T.scopeIdentifier scope ∉ scopes)
    (q : String) : (T.withStore after).applicable p q scopes = T.applicable p q scopes := by
  rw [applicable_eq_filterMap, applicable_eq_filterMap]
  have hdropped : (after.objects p.term q).filterMap ((T.withStore after).rankedText scopes) =
      (T.store.objects p.term q).filterMap ((T.withStore after).rankedText scopes) := by
    apply h.insertion.isExtension.filterMap_objects
    intro t ht hsubject hpredicate
    rcases mem_annotationFacts_iff.1 ht with rfl | rfl | rfl
    · exact h.rankedText_blank hscopes
    · exact absurd hsubject.symm h.term_ne_blank
    · exact absurd hsubject.symm h.term_ne_blank
  rw [hdropped]
  refine List.filterMap_congr fun value hvalue => ?_
  exact h.rankedText_eq (h.blank_ne_object (Store.mem_objects.1 hvalue))

end AnnotationInsertion

/-! ## The main result -/

/-- **Noninterference.** An annotation of a property for a scope that does not apply, wherever its
facts are inserted, changes neither the texts that the property has for the selected class or for
none, nor its context name. -/
theorem unrelated_annotation_noninterference (T : Taxonomy) {after : Store} {p : Node}
    {predicate label : String} {scope : Term} {text : Literal}
    (h : T.AnnotationInsertion after p predicate label scope text) (selected : Option Node)
    (hscope : T.scopeIdentifier scope ∉ T.scopes p selected) :
    (∀ q, (T.withStore after).resolveTexts p q ((T.withStore after).scopes p selected) =
        T.resolveTexts p q (T.scopes p selected)) ∧
      (∀ q, (T.withStore after).resolveText p q ((T.withStore after).scopes p selected) =
        T.resolveText p q (T.scopes p selected)) ∧
      (T.withStore after).contextName p ((T.withStore after).scopes p selected) =
        T.contextName p (T.scopes p selected) := by
  rw [h.scopes_eq]
  have htext : ∀ q, (T.withStore after).resolveText p q (T.scopes p selected) =
      T.resolveText p q (T.scopes p selected) := by
    intro q
    unfold resolveText
    rw [h.applicable_eq hscope]
  refine ⟨fun q => ?_, htext, ?_⟩
  · unfold resolveTexts
    rw [h.applicable_eq hscope]
  · unfold contextName
    rw [htext]
    rfl

/-- Houses have a roof; boats have none. -/
def roofs : Taxonomy where
  store := .ofList
    [⟨.iri "http://x/o#House", Rdf.type, .iri Rdfs.classType⟩,
     ⟨.iri "http://x/o#Boat", Rdf.type, .iri Rdfs.classType⟩,
     ⟨.iri "http://x/o#cover", Rdfs.domain, .iri "http://x/o#House"⟩,
     ⟨.iri "http://x/o#cover", Rdfs.label, .plain "roof"⟩]
  namespaces := .empty

/-- The same, with the label of the cover of a boat among the other facts. -/
def roofsAndDeck : Store := .ofList
  [⟨.blank "b", Pot.scope, .iri "http://x/o#Boat"⟩,
   ⟨.iri "http://x/o#House", Rdf.type, .iri Rdfs.classType⟩,
   ⟨.iri "http://x/o#Boat", Rdf.type, .iri Rdfs.classType⟩,
   ⟨.iri "http://x/o#cover", Rdfs.domain, .iri "http://x/o#House"⟩,
   ⟨.blank "b", Rdf.value, .plain "deck"⟩,
   ⟨.iri "http://x/o#cover", Rdfs.label, .plain "roof"⟩,
   ⟨.iri "http://x/o#cover", Rdfs.label, .blank "b"⟩]

/-- The cover of a house stays a roof. -/
theorem roofsAndDeck_unchanged :
    roofs.AnnotationInsertion roofsAndDeck (.ofProperty (.iri "http://x/o#cover")) Rdfs.label "b"
        (.iri "http://x/o#Boat") { text := "deck" } ∧
      (roofs.withStore roofsAndDeck).resolveText (.ofProperty (.iri "http://x/o#cover")) Rdfs.label
        ((roofs.withStore roofsAndDeck).classScopes (.ofClass (.iri "http://x/o#House"))) =
      some "roof" := by
  let House : Node := .ofClass (.iri "http://x/o#House")
  have hinsertion : roofs.AnnotationInsertion roofsAndDeck (.ofProperty (.iri "http://x/o#cover"))
      Rdfs.label "b" (.iri "http://x/o#Boat") { text := "deck" } :=
    ⟨⟨by decide, by decide +kernel⟩, by decide, by decide, by decide⟩
  have hscopes : roofs.classScopes House = ["http://x/o#House"] := by
    have hroot : roofs.realParents House = [] := by decide +kernel
    rw [classScopes, ancestors_of_root hroot]
    rfl
  have hscope : roofs.scopeIdentifier (.iri "http://x/o#Boat") ∉ roofs.classScopes House := by
    rw [hscopes]
    decide
  have hmain := unrelated_annotation_noninterference roofs hinsertion (some House) hscope
  refine ⟨hinsertion, (hmain.2.1 Rdfs.label).trans ?_⟩
  show roofs.resolveText _ _ (roofs.classScopes House) = _
  rw [hscopes]
  decide +kernel

end TaxonomyPress.Taxonomy
