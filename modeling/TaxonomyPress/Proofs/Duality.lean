import TaxonomyPress.Proofs.Closeness
import TaxonomyPress.Proofs.Dictionaries
import TaxonomyPress.Proofs.Documents

/-!
# Up and down again

Walks upwards drop parents that are dangling or the node itself, at each step; walks downwards follow
every declaration. They meet all the same, because only the last parent of a chain can be dangling.

* `Taxonomy.SubclassOf` : a declared parent, real or not;
* `Taxonomy.mem_ancestors_iff_subclassOf` : the other resources with facts to which chains of declared
  parents lead are the ancestors;
* `Taxonomy.mem_descendants_of_mem_ancestors` : a node is below what is above it;
* `supportedClasses` : the entries of a vocabulary document, the class and its descendants
  (`Taxonomy.supportedClasses_of_mem_classDocuments`);
* `Taxonomy.ancestors_dual_descendants` : so the entry of a class stands in the vocabularies of its
  ancestors.
-/

namespace TaxonomyPress

open Relation

namespace Taxonomy

variable {T : Taxonomy} {a d : Term}

/-! ## Declared parents -/

/-- The store declares `y` a parent of `x`. -/
def SubclassOf (T : Taxonomy) (x y : Term) : Prop := ⟨x, Rdfs.subClassOf, y⟩ ∈ T.store.triples

instance (x y : Term) : Decidable (T.SubclassOf x y) :=
  inferInstanceAs (Decidable (_ ∈ T.store.triples))

theorem SubclassOf.hasSubject {x y : Term} (h : T.SubclassOf x y) : T.store.hasSubject x :=
  Store.hasSubject_iff.2 ⟨_, h, rfl⟩

theorem SubclassOf.memberOf {x y : Term} (h : T.SubclassOf x y) : T.MemberOf x y := Or.inl h

theorem RealParent.subclassOf {n p : Node} (h : T.RealParent n p) (hkind : n.kind = .classNode) :
    T.SubclassOf n.term p.term := by
  have hdeclared := h.declared
  rwa [hkind] at hdeclared

/-- A declared parent of another term is real if it is a resource with a fact of its own. -/
theorem SubclassOf.realParent {x y : Term} (h : T.SubclassOf x y) (hne : x ≠ y)
    (hresource : y.isResource) (hsubject : T.store.hasSubject y) :
    T.RealParent (.ofClass x) (.ofClass y) :=
  ⟨rfl, h, hne.symm, hresource, hsubject⟩

theorem transGen_subclassOf_of_above {n m : Node} (h : T.Above n m) (hkind : n.kind = .classNode) :
    TransGen T.SubclassOf n.term m.term := by
  induction h with
  | single hp => exact .single (hp.subclassOf hkind)
  | tail hm hp ih =>
    have hmkind : _ = NodeKind.classNode := (Above.kind_eq hm).trans hkind
    exact ih.tail (hp.subclassOf hmkind)

/-- A chain of declared parents to a real one goes over real ones only, once the steps from a term to
itself are left out: what stands inside the chain has a fact of its own. -/
theorem above_of_transGen_subclassOf (hT : T.store.Unambiguous) (hresource : a.isResource)
    (hsubject : T.store.hasSubject a) (h : TransGen T.SubclassOf d a) (hne : d ≠ a) :
    T.Above (.ofClass d) (.ofClass a) := by
  induction h using TransGen.head_induction_on with
  | single hstep => exact .single (hstep.realParent hne hresource hsubject)
  | @head d x hstep hchain ih =>
    by_cases hxa : x = a
    · subst hxa
      exact .single (hstep.realParent hne hresource hsubject)
    · by_cases hdx : d = x
      · exact hdx ▸ ih hxa
      · obtain ⟨y, hy, -⟩ := TransGen.head'_iff.1 hchain
        have hxresource : x.isResource := hT.subject_isResource _ hy
        exact .head (hstep.realParent hdx hxresource hy.hasSubject) (ih hxa)

theorem mem_ancestors_iff_subclassOf (hT : T.store.Unambiguous) (hne : a ≠ d) :
    .ofClass a ∈ T.ancestors (.ofClass d) ↔
      a.isResource ∧ T.store.hasSubject a ∧ TransGen T.SubclassOf d a := by
  rw [mem_ancestors_iff hT]
  constructor
  · rintro ⟨-, habove⟩
    obtain ⟨p, -, hp⟩ := TransGen.tail'_iff.1 habove
    exact ⟨hp.isResource, hp.hasSubject, transGen_subclassOf_of_above habove rfl⟩
  · rintro ⟨hresource, hsubject, hchain⟩
    refine ⟨fun heq => hne (congrArg Node.term heq), ?_⟩
    exact above_of_transGen_subclassOf hT hresource hsubject hchain hne.symm

/-- A node is below what is above it. -/
theorem mem_descendants_of_mem_ancestors (hT : T.store.Unambiguous) (hne : a ≠ d)
    (h : .ofClass a ∈ T.ancestors (.ofClass d)) : .ofClass d ∈ T.descendants (.ofClass a) := by
  obtain ⟨hresource, -, hchain⟩ := (mem_ancestors_iff_subclassOf hT hne).1 h
  refine (mem_descendants_iff hT hresource).2 ⟨rfl, hne.symm, ?_⟩
  exact TransGen.mono (fun _ _ hstep => SubclassOf.memberOf hstep) _ _ hchain

end Taxonomy

/-! ## Vocabularies -/

/-- The entries that the body of a vocabulary lists for classes. -/
def supportedClasses (body : Json) : List Json :=
  ((body.get? "pot:supportedClass").bind Json.asArray?).getD []

theorem supportedClasses_toJson (vocabulary : Vocabulary) :
    supportedClasses vocabulary.toJson = vocabulary.classes.map ClassEntry.toJson := by
  have hmember : vocabulary.toJson.get? "pot:supportedClass" =
      some (.array (vocabulary.classes.map ClassEntry.toJson)) := by
    simp [Vocabulary.toJson, Json.get?_ofEntries]
  unfold supportedClasses
  rw [hmember]
  rfl

namespace Taxonomy

variable {T : Taxonomy} {settings : Settings} {a d : Term}

theorem classes_of_vocabulary {n : Node} {vocabulary : Vocabulary}
    (h : T.vocabulary settings n = .ok vocabulary) :
    vocabulary.classes = (n :: T.descendants n).map T.classEntry := by
  unfold Taxonomy.vocabulary at h
  obtain ⟨id, -, h⟩ := bind_eq_ok_iff.1 h
  obtain ⟨attributes, -, h⟩ := bind_eq_ok_iff.1 h
  obtain rfl : _ = vocabulary := pure_eq_ok_iff.1 h
  rfl

/-- The vocabularies of a class list the class and then its descendants. -/
theorem supportedClasses_of_mem_classDocuments {n : Node} {documents : List Document}
    (h : T.classDocuments settings n = .ok documents) {document : Document}
    (hdocument : document ∈ documents) (hkind : document.kind = .vocabulary) :
    supportedClasses document.body =
      (n :: T.descendants n).map fun m => (T.classEntry m).toJson := by
  obtain ⟨lineages, bodies, id, hbuilt, rfl⟩ := classDocuments_eq_ok_iff.1 h
  rcases List.mem_append.1 hdocument with hdocument | hdocument
  · obtain ⟨l, -, hdocument⟩ := List.mem_flatMap.1 hdocument
    rcases mem_lineageDocuments_iff.1 hdocument with rfl | ⟨_, _, rfl⟩ | ⟨_, _, rfl⟩ | ⟨_, rfl⟩
    · rw [supportedClasses_toJson, classes_of_vocabulary (classBodies_eq_ok hbuilt.bodies_eq).1,
        List.map_map]
      rfl
    all_goals cases hkind
  · rw [List.mem_singleton.1 hdocument] at hkind
    cases hkind

/-- A class that is built has a vocabulary, for it has a lineage. -/
theorem exists_vocabulary_mem_classDocuments {n : Node} {documents : List Document}
    (h : T.classDocuments settings n = .ok documents) :
    ∃ document ∈ documents, document.kind = .vocabulary := by
  obtain ⟨lineages, bodies, id, hbuilt, rfl⟩ := classDocuments_eq_ok_iff.1 h
  obtain ⟨l, hl⟩ := List.exists_mem_of_ne_nil _ (lineages_ne_nil hbuilt.lineages_eq)
  refine ⟨⟨.vocabulary, documentPath .vocabulary l, bodies.vocabulary.toJson⟩, ?_, rfl⟩
  refine List.mem_append_left _ (List.mem_flatMap.2 ⟨l, hl, ?_⟩)
  exact mem_lineageDocuments_iff.2 (Or.inl rfl)

/-! ## The main result -/

/-- **Up and down are dual.** On every graph and for every two terms, `a` is an ancestor of `d` just
when it is a resource with a fact of its own to which declared parents lead from `d`; then `d` is a
descendant of `a`. So when the classes `a` and `d` are both built, they have vocabularies, and the entry
that stands first in those of `d` stands in those of `a`. -/
theorem ancestors_dual_descendants (T : Taxonomy) (hT : T.store.Unambiguous) {a d : Term}
    (hne : a ≠ d) :
    (.ofClass a ∈ T.ancestors (.ofClass d) ↔
      a.isResource ∧ T.store.hasSubject a ∧ TransGen T.SubclassOf d a) ∧
      (.ofClass a ∈ T.ancestors (.ofClass d) → .ofClass d ∈ T.descendants (.ofClass a)) ∧
      (.ofClass a ∈ T.ancestors (.ofClass d) → ∀ settings above below,
        T.classDocuments settings (.ofClass a) = .ok above →
        T.classDocuments settings (.ofClass d) = .ok below →
        (∃ v ∈ above, v.kind = .vocabulary) ∧ (∃ v ∈ below, v.kind = .vocabulary) ∧
          ∀ v ∈ above, v.kind = .vocabulary → ∀ w ∈ below, w.kind = .vocabulary →
            ∃ entry, (supportedClasses w.body).head? = some entry ∧
              entry = (T.classEntry (.ofClass d)).toJson ∧ entry ∈ supportedClasses v.body) := by
  refine ⟨mem_ancestors_iff_subclassOf hT hne, mem_descendants_of_mem_ancestors hT hne, ?_⟩
  intro h settings above below habove hbelow
  refine ⟨exists_vocabulary_mem_classDocuments habove,
    exists_vocabulary_mem_classDocuments hbelow, fun v hv hvkind w hw hwkind => ?_⟩
  have hd : .ofClass d ∈ T.descendants (.ofClass a) := mem_descendants_of_mem_ancestors hT hne h
  rw [supportedClasses_of_mem_classDocuments habove hv hvkind,
    supportedClasses_of_mem_classDocuments hbelow hw hwkind]
  refine ⟨_, rfl, rfl, List.mem_map.2 ⟨.ofClass d, List.mem_cons_of_mem _ hd, rfl⟩⟩

/-- The vocabulary of the buildings lists the entry of the cottages. -/
theorem village_cottages_listed :
    village.store.Unambiguous ∧
      Term.iri "http://x/o#Building" ≠ Term.iri "http://x/o#Cottage" ∧
      .ofClass (.iri "http://x/o#Building") ∈
        village.ancestors (.ofClass (.iri "http://x/o#Cottage")) ∧
      .ofClass (.iri "http://x/o#Cottage") ∈
        village.descendants (.ofClass (.iri "http://x/o#Building")) ∧
      ∃ v ∈ (village.build {}).documents, v.kind = .vocabulary ∧
        (village.classEntry (.ofClass (.iri "http://x/o#Cottage"))).toJson ∈
          supportedClasses v.body := by
  have hne : Term.iri "http://x/o#Building" ≠ Term.iri "http://x/o#Cottage" := by decide
  have hbuilds : (village.build {}).failures = [] :=
    failures_build_eq_nil_of_titled (by decide) (by decide) (by decide)
  have hclass : .ofClass (.iri "http://x/o#Building") ∈ village.classes := by decide
  obtain ⟨above, habove⟩ := failures_build_eq_nil_iff.1 hbuilds _ hclass
  obtain ⟨below, hbelow⟩ := failures_build_eq_nil_iff.1 hbuilds
    (.ofClass (.iri "http://x/o#Cottage")) (by decide)
  obtain ⟨hiff, hdown, hentries⟩ := ancestors_dual_descendants village unambiguous_village hne
  have hchain : TransGen village.SubclassOf (.iri "http://x/o#Cottage") (.iri "http://x/o#Building") :=
    .head (b := .iri "http://x/o#House") (by decide) (.single (by decide))
  have hmem := hiff.2 ⟨rfl, by decide, hchain⟩
  obtain ⟨⟨v, hv, hvkind⟩, ⟨w, hw, hwkind⟩, hlisted⟩ := hentries hmem {} above below habove hbelow
  obtain ⟨entry, -, rfl, hentry⟩ := hlisted v hv hvkind w hw hwkind
  exact ⟨unambiguous_village, hne, hmem, hdown hmem, v,
    classDocuments_subset_build hclass habove hv, hvkind, hentry⟩

end Taxonomy

end TaxonomyPress
