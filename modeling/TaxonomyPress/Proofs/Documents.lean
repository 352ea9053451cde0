import TaxonomyPress.Proofs.Inheritance
import TaxonomyPress.Proofs.MalformedAncestors
import TaxonomyPress.Proofs.Publication

/-!
# The documents of a build, one by one

* `Taxonomy.Built` : a class is built with its lineages, its bodies and its canonical identifier
  (`Taxonomy.classDocuments_eq_ok_iff`);
* `Taxonomy.mem_lineageDocuments_iff` : the documents of a class under a lineage;
* `Taxonomy.mem_documents_build_iff` : a build has the documents of the classes that are built, and
  the root index, whose entries are the built classes without parents (`Taxonomy.mem_rootEntries_iff`);
* `Taxonomy.vocabulary_mem_build_iff`, `Taxonomy.index_mem_build_iff` : its documents of these kinds;
* `Taxonomy.failures_build` : its failures;
* `Taxonomy.failures_build_eq_nil_iff` : it reports no failure just when every class is built, as
  every class is in a graph with titles and without properties
  (`Taxonomy.failures_build_eq_nil_of_titled`).
-/

namespace TaxonomyPress.Taxonomy

open Relation

variable {T : Taxonomy} {settings : Settings}

/-! ## One class -/

/-- Building the class `n` succeeds with these lineages, bodies and canonical identifier. -/
structure Built (T : Taxonomy) (settings : Settings) (n : Node) (lineages : List Lineage)
    (bodies : ClassBodies) (id : String) : Prop where
  lineages_eq : T.lineages n = .ok lineages
  bodies_eq : T.classBodies settings n = .ok bodies
  canonicalId_eq : T.canonicalId n = .ok id

/-- The document of the fragment of `n`. -/
def fragmentDocument (T : Taxonomy) (settings : Settings) (n : Node) (id : String) : Document :=
  ⟨.ontology, documentPath .ontology (canonicalLineage id), T.fragment settings n⟩

theorem classDocuments_eq_ok_iff {n : Node} {documents : List Document} :
    T.classDocuments settings n = .ok documents ↔
      ∃ lineages bodies id, T.Built settings n lineages bodies id ∧
        lineages.flatMap (T.lineageDocuments settings n bodies) ++
          [T.fragmentDocument settings n id] = documents := by
  constructor
  · intro h
    unfold classDocuments at h
    obtain ⟨lineages, hlineages, h⟩ := bind_eq_ok_iff.1 h
    obtain ⟨bodies, hbodies, h⟩ := bind_eq_ok_iff.1 h
    obtain ⟨id, hid, h⟩ := bind_eq_ok_iff.1 h
    exact ⟨lineages, bodies, id, ⟨hlineages, hbodies, hid⟩, pure_eq_ok_iff.1 h⟩
  · rintro ⟨lineages, bodies, id, ⟨hlineages, hbodies, hid⟩, rfl⟩
    exact classDocuments_eq_ok hlineages hbodies hid

theorem mem_lineageDocuments_iff {n : Node} {bodies : ClassBodies} {l : Lineage} {d : Document} :
    d ∈ T.lineageDocuments settings n bodies l ↔
      d = ⟨.vocabulary, documentPath .vocabulary l, bodies.vocabulary.toJson⟩ ∨
      (∃ identity ∈ bodies.identity, d = ⟨.identity, documentPath .context l, identity.toJson⟩) ∨
      (∃ definition ∈ bodies.definition,
        d = ⟨.definition, documentPath .classDefinitions l, definition.toJson⟩) ∨
      (T.hasChildren n ∧ d = ⟨.index, indexPath l, (T.classIndex settings n l).toJson⟩) := by
  unfold lineageDocuments
  simp only [List.append_assoc, List.mem_append, List.mem_singleton, Option.mem_toList,
    Option.mem_def, Option.map_eq_some_iff, List.mem_ite_nil_right, @eq_comm _ _ d]

/-- A class without a canonical identifier is not built. -/
theorem fails_classDocuments_of_canonicalId {n : Node} (h : Fails (T.canonicalId n)) :
    Fails (T.classDocuments settings n) := by
  by_contra hbuilds
  obtain ⟨documents, hdocuments⟩ := not_fails_iff.1 hbuilds
  obtain ⟨lineages, bodies, id, hbuilt, -⟩ := classDocuments_eq_ok_iff.1 hdocuments
  exact not_fails_iff.2 ⟨id, hbuilt.canonicalId_eq⟩ h

/-- Of the documents of a class only the fragment is an ontology. -/
theorem filter_ontology {n : Node} {lineages : List Lineage} {bodies : ClassBodies} {id : String} :
    (lineages.flatMap (T.lineageDocuments settings n bodies) ++
      [T.fragmentDocument settings n id]).filter (·.kind = .ontology) =
        [T.fragmentDocument settings n id] := by
  have hnone : (lineages.flatMap (T.lineageDocuments settings n bodies)).filter
      (·.kind = .ontology) = [] := by
    refine List.filter_eq_nil_iff.2 fun d hd => ?_
    obtain ⟨l, -, hd⟩ := List.mem_flatMap.1 hd
    rcases mem_lineageDocuments_iff.1 hd with rfl | ⟨_, _, rfl⟩ | ⟨_, _, rfl⟩ | ⟨_, rfl⟩
    all_goals exact Bool.false_ne_true
  rw [List.filter_append, hnone]
  rfl

/-! ## All classes -/

/-- The documents that the class `n` adds. -/
def builtDocuments (T : Taxonomy) (settings : Settings) (n : Node) : List Document :=
  ClassOutcome.documents ⟨n, T.classDocuments settings n⟩

/-- The entries of the root index. -/
def rootEntries (T : Taxonomy) (settings : Settings) : List (String × String) :=
  sortWith compareEntries (distinct
    (T.classes.filterMap fun n => T.rootEntry? ⟨n, T.classDocuments settings n⟩))

/-- The root index. -/
def rootDocument (T : Taxonomy) (settings : Settings) : Document :=
  ⟨.index, rootIndexPath, (rootIndex settings T.namespaces (T.rootEntries settings)).toJson⟩

theorem documents_build : (T.build settings).documents =
    T.classes.flatMap (T.builtDocuments settings) ++ [T.rootDocument settings] := by
  unfold build rootDocument rootEntries
  simp only [List.flatMap_map, List.filterMap_map]
  rfl

theorem mem_builtDocuments_iff {n : Node} {d : Document} :
    d ∈ T.builtDocuments settings n ↔ ∃ lineages bodies id, T.Built settings n lineages bodies id ∧
      ((∃ l ∈ lineages, d ∈ T.lineageDocuments settings n bodies l) ∨
        d = T.fragmentDocument settings n id) := by
  unfold builtDocuments ClassOutcome.documents
  constructor
  · intro hd
    split at hd
    · rename_i documents hdocuments
      obtain ⟨lineages, bodies, id, hbuilt, rfl⟩ := classDocuments_eq_ok_iff.1 hdocuments
      refine ⟨lineages, bodies, id, hbuilt, ?_⟩
      rw [List.mem_append, List.mem_flatMap, List.mem_singleton] at hd
      exact hd
    · cases hd
  · rintro ⟨lineages, bodies, id, hbuilt, hd⟩
    rw [classDocuments_eq_ok_iff.2 ⟨lineages, bodies, id, hbuilt, rfl⟩]
    show d ∈ _ ++ _
    rw [List.mem_append, List.mem_flatMap, List.mem_singleton]
    exact hd

theorem mem_documents_build_iff {d : Document} :
    d ∈ (T.build settings).documents ↔
      (∃ n ∈ T.classes, d ∈ T.builtDocuments settings n) ∨ d = T.rootDocument settings := by
  rw [documents_build, List.mem_append, List.mem_flatMap, List.mem_singleton]

theorem mem_rootEntries_iff {entry : String × String} :
    entry ∈ T.rootEntries settings ↔ ∃ n ∈ T.classes,
      (∃ documents, T.classDocuments settings n = .ok documents) ∧ T.realParents n = [] ∧
        T.compactId n = entry.1 ∧ T.title n = .ok entry.2 := by
  unfold rootEntries
  rw [mem_sortWith, mem_distinct, List.mem_filterMap]
  refine exists_congr fun n => and_congr_right fun _ => ?_
  unfold rootEntry?
  constructor
  · intro h
    split at h
    · rename_i documents title hdocuments hroot htitle
      obtain rfl := Option.some.inj h
      exact ⟨⟨documents, hdocuments⟩, hroot, rfl, htitle⟩
    · cases h
  · rintro ⟨⟨documents, hdocuments⟩, hroot, hid, htitle⟩
    obtain ⟨id, title⟩ := entry
    obtain rfl : T.compactId n = id := hid
    simp only [hdocuments, hroot, htitle]

/-! ## Failures -/

/-- The failure of `n`, if the computation for it fails. -/
def failureOf {α : Type} (n : Node) : Except MalformedIdentifier α → Option ClassFailure
  | .ok _ => none
  | .error cause => some ⟨n.identifier, cause⟩

theorem failureOf_eq_some_iff {α : Type} {n : Node} {x : Except MalformedIdentifier α}
    {f : ClassFailure} :
    failureOf n x = some f ↔ f.iri = n.identifier ∧ x = .error f.cause := by
  obtain ⟨iri, cause⟩ := f
  cases x with
  | ok a => simp [failureOf]
  | error cause' => simp [failureOf, eq_comm]

theorem isSome_failureOf {α : Type} {n : Node} {x : Except MalformedIdentifier α} :
    (failureOf n x).isSome ↔ Fails x := by
  cases x with
  | ok a => exact iff_of_false Bool.false_ne_true (not_fails_ok a)
  | error cause => exact iff_of_true rfl (fails_error cause)

theorem ClassOutcome.failure?_eq (outcome : ClassOutcome) :
    outcome.failure? = failureOf outcome.node outcome.result := by
  unfold ClassOutcome.failure?
  cases outcome.result with
  | ok documents => rfl
  | error cause => rfl

/-- The failures of a build, in class order. -/
theorem failures_build (T : Taxonomy) (settings : Settings) : (T.build settings).failures =
    T.classes.filterMap fun n => failureOf n (T.classDocuments settings n) := by
  unfold build
  simp only [List.filterMap_map]
  exact List.filterMap_congr fun n _ => ClassOutcome.failure?_eq _

theorem failures_build_eq_nil_iff :
    (T.build settings).failures = [] ↔
      ∀ n ∈ T.classes, ∃ documents, T.classDocuments settings n = .ok documents := by
  rw [failures_build, List.filterMap_eq_nil_iff]
  refine forall₂_congr fun n _ => ?_
  rw [← Option.not_isSome_iff_eq_none, isSome_failureOf, not_fails_iff]

/-! ## Documents of one kind -/

theorem vocabulary_mem_build_iff {d : Document} :
    d ∈ (T.build settings).documents ∧ d.kind = .vocabulary ↔
      ∃ n ∈ T.classes, ∃ lineages bodies id, T.Built settings n lineages bodies id ∧
        ∃ l ∈ lineages,
          d = ⟨.vocabulary, documentPath .vocabulary l, bodies.vocabulary.toJson⟩ := by
  constructor
  · rintro ⟨hd, hkind⟩
    rcases mem_documents_build_iff.1 hd with ⟨n, hn, hd⟩ | rfl
    · obtain ⟨lineages, bodies, id, hbuilt, ⟨l, hl, hd⟩ | rfl⟩ := mem_builtDocuments_iff.1 hd
      · rcases mem_lineageDocuments_iff.1 hd with h | ⟨_, _, rfl⟩ | ⟨_, _, rfl⟩ | ⟨_, rfl⟩
        · exact ⟨n, hn, lineages, bodies, id, hbuilt, l, hl, h⟩
        all_goals cases hkind
      · cases hkind
    · cases hkind
  · rintro ⟨n, hn, lineages, bodies, id, hbuilt, l, hl, rfl⟩
    refine ⟨mem_documents_build_iff.2 (Or.inl ⟨n, hn, ?_⟩), rfl⟩
    refine mem_builtDocuments_iff.2 ⟨lineages, bodies, id, hbuilt, Or.inl ⟨l, hl, ?_⟩⟩
    exact mem_lineageDocuments_iff.2 (Or.inl rfl)

theorem index_mem_build_iff {d : Document} :
    d ∈ (T.build settings).documents ∧ d.kind = .index ↔
      (∃ n ∈ T.classes, ∃ lineages bodies id, T.Built settings n lineages bodies id ∧
        ∃ l ∈ lineages, T.hasChildren n ∧
          d = ⟨.index, indexPath l, (T.classIndex settings n l).toJson⟩) ∨
      d = T.rootDocument settings := by
  constructor
  · rintro ⟨hd, hkind⟩
    rcases mem_documents_build_iff.1 hd with ⟨n, hn, hd⟩ | rfl
    · obtain ⟨lineages, bodies, id, hbuilt, ⟨l, hl, hd⟩ | rfl⟩ := mem_builtDocuments_iff.1 hd
      · rcases mem_lineageDocuments_iff.1 hd with rfl | ⟨_, _, rfl⟩ | ⟨_, _, rfl⟩ | h
        · cases hkind
        · cases hkind
        · cases hkind
        · exact Or.inl ⟨n, hn, lineages, bodies, id, hbuilt, l, hl, h⟩
      · cases hkind
    · exact Or.inr rfl
  · rintro (⟨n, hn, lineages, bodies, id, hbuilt, l, hl, h⟩ | rfl)
    · refine ⟨mem_documents_build_iff.2 (Or.inl ⟨n, hn, ?_⟩), h.2 ▸ rfl⟩
      refine mem_builtDocuments_iff.2 ⟨lineages, bodies, id, hbuilt, Or.inl ⟨l, hl, ?_⟩⟩
      exact mem_lineageDocuments_iff.2 (Or.inr (Or.inr (Or.inr h)))
    · exact ⟨mem_documents_build_iff.2 (Or.inr rfl), rfl⟩

theorem exists_built_of_failures_eq_nil (h : (T.build settings).failures = []) {n : Node}
    (hn : n ∈ T.classes) : ∃ lineages bodies id, T.Built settings n lineages bodies id := by
  obtain ⟨documents, hdocuments⟩ := failures_build_eq_nil_iff.1 h n hn
  obtain ⟨lineages, bodies, id, hbuilt, -⟩ := classDocuments_eq_ok_iff.1 hdocuments
  exact ⟨lineages, bodies, id, hbuilt⟩

/-! ## Graphs without failures -/

/-- The node and all above it have titles. -/
def Titled (T : Taxonomy) (n : Node) : Prop :=
  ∀ m, m = n ∨ T.Above n m → ∃ title, T.title m = .ok title

theorem Titled.of_realParent {n p : Node} (h : T.Titled n) (hp : T.RealParent n p) :
    T.Titled p := by
  rintro m (rfl | hm)
  · exact h m (Or.inr (.single hp))
  · exact h m (Or.inr (.head hp hm))

theorem kind_and_subject_of_mem_classes {n : Node} (h : n ∈ T.classes) :
    n.kind = .classNode ∧ T.store.hasSubject n.term := by
  simp only [classes, List.mem_map, mem_distinct, List.mem_filter, Store.mem_matching] at h
  obtain ⟨_, ⟨t, ⟨⟨ht, -⟩, -⟩, rfl⟩, rfl⟩ := h
  exact ⟨rfl, Store.hasSubject_iff.2 ⟨t, ht, rfl⟩⟩

/-- In a graph whose subjects have titles, so have its nodes and all above them. -/
theorem titled_of_subjects {n : Node}
    (h : ∀ t ∈ T.store.triples, (T.title (.ofClass t.subject)).toOption.isSome)
    (hn : T.store.hasSubject n.term) : T.Titled n := by
  have htitle : ∀ m : Node, T.store.hasSubject m.term → ∃ title, T.title m = .ok title := by
    intro m hm
    obtain ⟨t, ht, hsubject⟩ := Store.hasSubject_iff.1 hm
    have hsome : (T.title m).toOption.isSome := by
      have ht := h t ht
      rwa [hsubject] at ht
    cases hm : T.title m with
    | error cause =>
      rw [hm] at hsome
      cases hsome
    | ok title => exact ⟨title, rfl⟩
  rintro m (rfl | hm)
  · exact htitle m hn
  · obtain ⟨p, -, hp⟩ := TransGen.tail'_iff.1 hm
    exact htitle m hp.hasSubject

theorem Titled.exists_titlePaths {n : Node} (h : T.Titled n) (onPath : List NodeKey) :
    ∃ paths, T.titlePaths onPath n = .ok paths := by
  induction onPath, n using climb_induction (T := T) with
  | h onPath n ih =>
    obtain ⟨title, htitle⟩ := h n (Or.inl rfl)
    have hparents : ∀ p ∈ T.freshParents onPath n,
        ∃ paths, T.titlePaths (p.key :: onPath) p = .ok paths := by
      intro p hp
      obtain ⟨hparent, hkey⟩ := mem_freshParents.1 hp
      exact ih p hparent hkey (h.of_realParent hparent)
    obtain ⟨above, habove⟩ := exists_mapM_eq_ok hparents
    exact ⟨_, titlePaths_eq_ok_iff.2 ⟨title, above, htitle, habove, rfl⟩⟩

theorem above_of_mem_firstChain {onPath : List NodeKey} {n m : Node}
    (h : m ∈ T.parentSteps.firstChain onPath n) : T.Above n m := by
  induction onPath, n using climb_induction (T := T) with
  | h onPath n ih =>
    rcases firstChain_cases T onPath n with ⟨hstop, -⟩ | ⟨p, hp, hkey, hchain⟩
    · rw [hstop] at h
      cases h
    · rw [hchain] at h
      rcases List.mem_cons.1 h with rfl | h
      · exact .single hp
      · exact .head hp (ih p hp hkey h)

theorem Titled.exists_canonicalId {n : Node} (h : T.Titled n) : ∃ id, T.canonicalId n = .ok id := by
  refine not_fails_iff.1 fun hfails => ?_
  obtain ⟨m, hm, hsplit⟩ := fails_canonicalId_iff.1 hfails
  obtain ⟨title, htitle⟩ := h m ((List.mem_cons.1 hm).imp_right above_of_mem_firstChain)
  rw [← fails_title_iff, htitle] at hsplit
  exact not_fails_ok _ hsplit

theorem Titled.exists_built {n : Node} (h : T.Titled n) (settings : Settings)
    (hnone : T.allProperties n = []) :
    ∃ lineages bodies id, T.Built settings n lineages bodies id := by
  obtain ⟨paths, hpaths⟩ := h.exists_titlePaths [n.key]
  obtain ⟨id, hid⟩ := h.exists_canonicalId
  obtain ⟨title, htitle⟩ := h n (Or.inl rfl)
  obtain ⟨bodies, hbodies⟩ := exists_classBodies settings hid htitle hnone
  exact ⟨_, bodies, id, lineages_eq_ok_iff.2 ⟨paths, hpaths, rfl⟩, hbodies, hid⟩

/-- A class without parents is built under its title. -/
theorem exists_built_of_root (settings : Settings) {n : Node} {front title : String}
    (hroot : T.realParents n = []) (hsplit : T.split n = .ok (front, title))
    (hnone : T.allProperties n = []) :
    ∃ bodies, T.Built settings n [[title]] bodies (front ++ ":" ++ title) := by
  have htitle : T.title n = .ok title := by
    unfold Taxonomy.title
    rw [hsplit]
    rfl
  have hid : T.canonicalId n = .ok (front ++ ":" ++ title) :=
    canonicalId_eq_ok_iff.2
      ⟨front, title, [title], hsplit, canonicalTitles_of_root hroot htitle, rfl⟩
  obtain ⟨bodies, hbodies⟩ := exists_classBodies settings hid htitle hnone
  exact ⟨bodies, lineages_of_root hroot htitle, hbodies, hid⟩

/-- Only titles and properties make a build fail. -/
theorem failures_build_eq_nil_of_titled
    (hclosed : ∀ n ∈ T.classes, ∀ p ∈ T.realParents n, p ∈ T.classes)
    (htitled : ∀ n ∈ T.classes, (T.title n).toOption.isSome)
    (hnone : ∀ t ∈ T.store.triples, t.predicate ≠ Rdfs.domain) :
    (T.build settings).failures = [] := by
  have habove : ∀ {n m : Node}, n ∈ T.classes → T.Above n m → m ∈ T.classes := by
    intro n m hn hm
    induction hm with
    | single hp => exact hclosed n hn _ (mem_realParents_iff.2 hp)
    | tail _ hp ih => exact hclosed _ ih _ (mem_realParents_iff.2 hp)
  have htitle : ∀ n ∈ T.classes, ∃ title, T.title n = .ok title := by
    intro n hn
    have hsome := htitled n hn
    cases h : T.title n with
    | error cause =>
      rw [h] at hsome
      cases hsome
    | ok title => exact ⟨title, rfl⟩
  refine failures_build_eq_nil_iff.2 fun n hn => ?_
  have hn' : T.Titled n := by
    rintro m (rfl | hm)
    · exact htitle m hn
    · exact htitle m (habove hn hm)
  obtain ⟨lineages, bodies, id, hbuilt⟩ := hn'.exists_built settings (allProperties_eq_nil hnone n)
  exact ⟨_, classDocuments_eq_ok_iff.2 ⟨lineages, bodies, id, hbuilt, rfl⟩⟩

end TaxonomyPress.Taxonomy
