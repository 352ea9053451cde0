import TaxonomyPress.Proofs.Documents

/-!
# Which classes fail

* `Taxonomy.fails_classRecord_iff` : a class has no record just when it or one of its properties has no
  canonical identifier;
* `Taxonomy.fails_classDocuments_iff` : it has no documents just when it has no lineages or no record,
  for each document needs the record or less (`fails_vocabulary_iff`, `fails_identity_iff`,
  `fails_definition_iff`), and this does not depend on the settings, nor do the entries of the root index
  (`Taxonomy.rootEntries_settings`);
* `Taxonomy.Contribution` : what one class adds to a build, which is the sum of these
  (`Taxonomy.failures_eq`, `Taxonomy.rootEntries_eq`);
* `Taxonomy.failing_classes_leave_nothing` : so a class that fails is reported once and adds nothing, and
  all others have their documents.
-/

namespace TaxonomyPress.Taxonomy

variable {T : Taxonomy} {settings : Settings} {n p : Node}

/-! ## Names and records -/

theorem fails_canonicalId_of_title (h : Fails (T.title n)) : Fails (T.canonicalId n) :=
  fails_canonicalId_iff.2 ⟨n, List.mem_cons_self, fails_title_iff.1 h⟩

/-- A property without context name of its own goes by its title. -/
theorem fails_title_of_contextName {scopes : List String} (h : Fails (T.contextName p scopes)) :
    Fails (T.title p) := by
  unfold contextName at h
  split at h
  · exact absurd h (not_fails_ok _)
  · exact h

theorem fails_propertyRecord_iff {scopes : List String} :
    Fails (T.propertyRecord p scopes) ↔ Fails (T.canonicalId p) := by
  unfold propertyRecord
  rw [fails_bind_iff fun _ => fails_bind_iff fun _ => fails_bind_pure_iff]
  constructor
  · rintro (h | h | h)
    · exact h
    · exact fails_canonicalId_of_title h
    · exact fails_canonicalId_of_title (fails_title_of_contextName h)
  · exact Or.inl

/-- Annotations have no influence on which classes have a record. -/
theorem fails_classRecord_iff : Fails (T.classRecord n) ↔
    Fails (T.canonicalId n) ∨ ∃ p ∈ T.allProperties n, Fails (T.canonicalId p) := by
  unfold classRecord
  rw [fails_bind_iff fun _ => fails_bind_iff fun _ => fails_bind_pure_iff, fails_mapM_iff]
  simp only [fails_bind_pure_iff, fails_propertyRecord_iff]
  constructor
  · rintro (h | h | h)
    · exact Or.inr h
    · exact Or.inl h
    · exact Or.inl (fails_canonicalId_of_title h)
  · rintro (h | h)
    · exact Or.inr (Or.inl h)
    · exact Or.inl h

/-! ## Documents -/

theorem fails_vocabulary_iff : Fails (T.vocabulary settings n) ↔ Fails (T.classRecord n) := by
  have hentry : ∀ p, Fails (T.attributeEntry (T.classScopes n) p) ↔ Fails (T.canonicalId p) :=
    fun p => fails_bind_pure_iff.trans fails_propertyRecord_iff
  unfold Taxonomy.vocabulary
  rw [fails_bind_iff fun _ => fails_bind_pure_iff, fails_mapM_iff, fails_classRecord_iff]
  simp only [hentry]

theorem fails_identity_iff : Fails (T.identity settings n) ↔ Fails (T.classRecord n) := by
  have hmapping : ∀ p, Fails (T.attributeMapping (settings.flattens T n) (T.classScopes n) p) ↔
      Fails (T.canonicalId p) := by
    intro p
    unfold attributeMapping
    rw [fails_bind_iff fun _ => fails_bind_pure_iff]
    exact or_iff_right_of_imp fun h => fails_canonicalId_of_title (fails_title_of_contextName h)
  unfold Taxonomy.identity
  rw [fails_bind_iff fun _ => fails_bind_pure_iff, fails_mapM_iff, fails_classRecord_iff]
  simp only [hmapping]

theorem fails_definition_iff : Fails (T.definition settings n) ↔ Fails (T.classRecord n) :=
  fails_bind_pure_iff

/-- The settings have no influence on which classes fail: what an excluded class goes without fails with
its vocabulary. -/
theorem fails_classBodies_iff : Fails (T.classBodies settings n) ↔ Fails (T.classRecord n) := by
  unfold classBodies
  cases settings.excludes T n
  · simp only [Bool.false_eq_true, if_false]
    rw [fails_bind_iff fun _ => fails_bind_iff fun _ => fails_bind_pure_iff, fails_vocabulary_iff,
      fails_identity_iff, fails_definition_iff, or_self, or_self]
  · simp only [if_true]
    rw [fails_bind_pure_iff, fails_vocabulary_iff]

/-- The class has no lineages or no record. -/
def Unbuildable (T : Taxonomy) (n : Node) : Prop := Fails (T.lineages n) ∨ Fails (T.classRecord n)

instance : Decidable (T.Unbuildable n) := inferInstanceAs (Decidable (_ ∨ _))

theorem fails_classDocuments_iff (settings : Settings) :
    Fails (T.classDocuments settings n) ↔ T.Unbuildable n := by
  have hid : Fails (T.canonicalId n) → Fails (T.classRecord n) := fun h =>
    fails_classRecord_iff.2 (Or.inl h)
  unfold classDocuments
  rw [fails_bind_iff fun _ => fails_bind_iff fun _ => fails_bind_pure_iff, fails_classBodies_iff,
    or_iff_left_of_imp hid]
  rfl

theorem Titled.not_fails_classRecord (h : T.Titled n)
    (hproperties : ∀ p ∈ T.allProperties n, T.Titled p) : ¬ Fails (T.classRecord n) := by
  rw [fails_classRecord_iff]
  rintro (hid | ⟨p, hp, hid⟩)
  · exact not_fails_iff.2 h.exists_canonicalId hid
  · exact not_fails_iff.2 (hproperties p hp).exists_canonicalId hid

/-- A class is built if it and all its properties have titles. -/
theorem Titled.exists_classDocuments (h : T.Titled n)
    (hproperties : ∀ p ∈ T.allProperties n, T.Titled p) (settings : Settings) :
    ∃ documents, T.classDocuments settings n = .ok documents := by
  rw [← not_fails_iff, fails_classDocuments_iff]
  rintro (hlineages | hrecord)
  · obtain ⟨paths, hpaths⟩ := h.exists_titlePaths [n.key]
    rw [lineages_eq_ok_iff.2 ⟨paths, hpaths, rfl⟩] at hlineages
    exact not_fails_ok _ hlineages
  · exact h.not_fails_classRecord hproperties hrecord

/-- The root index lists a class by its name, and not by its documents. -/
theorem rootEntry?_congr {T' : Taxonomy} (hparents : T'.realParents n = T.realParents n)
    (htitle : T'.title n = T.title n) (hid : T'.compactId n = T.compactId n)
    {x x' : Except MalformedIdentifier (List Document)} (hx : Fails x' ↔ Fails x) :
    T'.rootEntry? ⟨n, x'⟩ = T.rootEntry? ⟨n, x⟩ := by
  simp only [ rootEntry?, hparents, htitle, hid]
  cases x' with
  | error cause' =>
    obtain ⟨cause, rfl⟩ := hx.1 (fails_error cause')
    rfl
  | ok documents' =>
    obtain ⟨documents, rfl⟩ := not_fails_iff.1 fun hfails => not_fails_ok _ (hx.2 hfails)
    cases T.realParents n <;> cases T.title n <;> rfl

/-- The settings have no influence on what the root index lists. -/
theorem rootEntries_settings (settings settings' : Settings) :
    T.rootEntries settings = T.rootEntries settings' := by
  refine congrArg (fun entries => sortWith compareEntries (distinct entries)) ?_
  refine List.filterMap_congr fun n _ => rootEntry?_congr rfl rfl rfl ?_
  rw [fails_classDocuments_iff, fails_classDocuments_iff]

/-! ## Contributions -/

/-- What one class adds to a build: documents, an entry in the root index, a failure. -/
structure Contribution where
  documents : List Document
  entry : Option (String × String)
  failure : Option ClassFailure

/-- What the class `n` adds. -/
def contribution (T : Taxonomy) (settings : Settings) (n : Node) : Contribution :=
  let outcome : ClassOutcome := ⟨n, T.classDocuments settings n⟩
  ⟨outcome.documents, T.rootEntry? outcome, outcome.failure?⟩

theorem rootEntries_eq : T.rootEntries settings = sortWith compareEntries (distinct
    (T.classes.filterMap fun n => (T.contribution settings n).entry)) := rfl

theorem failure_contribution :
    (T.contribution settings n).failure = failureOf n (T.classDocuments settings n) :=
  ClassOutcome.failure?_eq _

theorem failures_eq : (T.build settings).failures =
    T.classes.filterMap fun n => (T.contribution settings n).failure := by
  simp only [failure_contribution]
  exact failures_build T settings

theorem contribution_of_fails (h : T.Unbuildable n) :
    ∃ cause, T.contribution settings n = ⟨[], none, some ⟨n.identifier, cause⟩⟩ := by
  obtain ⟨cause, hcause⟩ := (fails_classDocuments_iff settings).2 h
  refine ⟨cause, ?_⟩
  unfold contribution
  rw [hcause]
  rfl

theorem countP_ontology {lineages : List Lineage} {bodies : ClassBodies} {id : String} :
    (lineages.flatMap (T.lineageDocuments settings n bodies) ++
      [T.fragmentDocument settings n id]).countP (·.kind = .ontology) = 1 := by
  rw [List.countP_eq_length_filter, filter_ontology]
  rfl

/-- A class that can be built has a lineage, and a vocabulary under it. -/
theorem contribution_of_not_fails (h : ¬ T.Unbuildable n) :
    (T.contribution settings n).failure = none ∧
      0 < (T.contribution settings n).documents.countP (·.kind = .vocabulary) ∧
      (T.contribution settings n).documents.countP (·.kind = .ontology) = 1 := by
  obtain ⟨documents, hdocuments⟩ :=
    not_fails_iff.1 fun hfails => h ((fails_classDocuments_iff settings).1 hfails)
  obtain ⟨lineages, bodies, id, hbuilt, rfl⟩ := classDocuments_eq_ok_iff.1 hdocuments
  unfold contribution
  rw [hdocuments]
  refine ⟨rfl, List.countP_pos_iff.2 ?_, countP_ontology⟩
  obtain ⟨l, hl⟩ := List.exists_mem_of_ne_nil lineages (lineages_ne_nil hbuilt.lineages_eq)
  refine ⟨⟨.vocabulary, documentPath .vocabulary l, bodies.vocabulary.toJson⟩, ?_, by simp⟩
  refine List.mem_append_left _ (List.mem_flatMap.2 ⟨l, hl, ?_⟩)
  exact mem_lineageDocuments_iff.2 (Or.inl rfl)

/-! ## Failures in class order -/

/-- A function that has a value just where `P` holds keeps the members with `P` in their order. -/
theorem forall₂_filterMap {α β : Type} {P : α → Prop} [DecidablePred P] {f : α → Option β}
    (h : ∀ x, (f x).isSome ↔ P x) (xs : List α) :
    List.Forall₂ (fun x y => f x = some y) (xs.filter P) (xs.filterMap f) := by
  induction xs with
  | nil => exact .nil
  | cons x xs ih =>
    cases hx : f x with
    | none =>
      have hnot : ¬ P x := fun hP => by simpa [hx] using (h x).2 hP
      rw [List.filter_cons_of_neg (by simpa using hnot), List.filterMap_cons_none hx]
      exact ih
    | some y =>
      have hP : P x := (h x).1 (by rw [hx]; rfl)
      rw [List.filter_cons_of_pos (by simpa using hP), List.filterMap_cons_some hx]
      exact .cons hx ih

theorem failures_resolveEach (nodes : List Node) :
    (T.resolveEach nodes).failures = nodes.filterMap fun n => failureOf n (T.classRecord n) := by
  induction nodes with
  | nil => rfl
  | cons n nodes ih =>
    rw [List.filterMap_cons, ← ih, resolveEach, resolveEach, List.foldr_cons]
    cases T.classRecord n with
    | ok record => rfl
    | error cause => rfl

/-- The classes that fail are reported once each, in class order. -/
theorem forall₂_failures_build (T : Taxonomy) (settings : Settings) :
    List.Forall₂ (fun n f => f.iri = n.identifier ∧ T.classDocuments settings n = .error f.cause)
      (T.classes.filter T.Unbuildable) (T.build settings).failures := by
  have hsome : ∀ n, (failureOf n (T.classDocuments settings n)).isSome ↔ T.Unbuildable n :=
    fun n => isSome_failureOf.trans (fails_classDocuments_iff settings)
  rw [failures_build]
  exact (forall₂_filterMap hsome T.classes).imp fun n f hf => failureOf_eq_some_iff.1 hf

theorem forall₂_failures_resolveAll (T : Taxonomy) :
    List.Forall₂ (fun n f => f.iri = n.identifier ∧ T.classRecord n = .error f.cause)
      (T.classes.filter fun n => Fails (T.classRecord n)) T.resolveAll.failures := by
  have hsome : ∀ n, (failureOf n (T.classRecord n)).isSome ↔ Fails (T.classRecord n) :=
    fun n => isSome_failureOf
  rw [resolveAll, failures_resolveEach]
  exact (forall₂_filterMap hsome T.classes).imp fun n f hf => failureOf_eq_some_iff.1 hf

theorem map_iri_eq {Q : Node → ClassFailure → Prop} {nodes : List Node} {failures : List ClassFailure}
    (h : List.Forall₂ (fun n f => f.iri = n.identifier ∧ Q n f) nodes failures) :
    failures.map (·.iri) = nodes.map Node.identifier := by
  induction h with
  | nil => rfl
  | cons hf _ ih => rw [List.map_cons, List.map_cons, hf.1, ih]

/-- Where no other class has the identifier of `n`, it tells whether `n` is reported. -/
theorem listed_iff (settings : Settings) (hn : n ∈ T.classes)
    (honly : ∀ m ∈ T.classes, m.identifier = n.identifier → m = n) :
    (∃ f ∈ (T.build settings).failures, f.iri = n.identifier) ↔ T.Unbuildable n := by
  have hiri : (∃ f ∈ (T.build settings).failures, f.iri = n.identifier) ↔
      n.identifier ∈ (T.classes.filter T.Unbuildable).map Node.identifier := by
    rw [← map_iri_eq (forall₂_failures_build T settings), List.mem_map]
  rw [hiri, List.mem_map]
  simp only [List.mem_filter, decide_eq_true_eq]
  constructor
  · rintro ⟨m, ⟨hm, hfails⟩, hmn⟩
    exact honly m hm hmn ▸ hfails
  · intro hfails
    exact ⟨n, ⟨hn, hfails⟩, rfl⟩

/-! ## The main result -/

/-- **Exactly the right classes fail, and they leave nothing behind.** A record fails just when the class
or one of its properties has no canonical identifier, and a class just when it has no lineages or no
record, whatever the settings. A build is the sum of what its classes contribute: one that fails adds a
failure and nothing else; any other adds none, but a vocabulary at least and one ontology fragment.
Failures stand in class order, and a class without record fails in both readings of the graph. -/
theorem failing_classes_leave_nothing (T : Taxonomy) (settings : Settings) :
    (∀ n, Fails (T.classRecord n) ↔
      Fails (T.canonicalId n) ∨ ∃ p ∈ T.allProperties n, Fails (T.canonicalId p)) ∧
    ((T.build settings).documents =
        (T.classes.flatMap fun n => (T.contribution settings n).documents) ++
          [T.rootDocument settings] ∧
      T.rootEntries settings = sortWith compareEntries (distinct
        (T.classes.filterMap fun n => (T.contribution settings n).entry)) ∧
      (T.build settings).failures =
        T.classes.filterMap fun n => (T.contribution settings n).failure) ∧
    (∀ n,
      (Fails (T.lineages n) ∨ Fails (T.classRecord n) →
        ∃ cause, T.contribution settings n = ⟨[], none, some ⟨n.identifier, cause⟩⟩) ∧
      (¬ (Fails (T.lineages n) ∨ Fails (T.classRecord n)) →
        (T.contribution settings n).failure = none ∧
          0 < (T.contribution settings n).documents.countP (·.kind = .vocabulary) ∧
          (T.contribution settings n).documents.countP (·.kind = .ontology) = 1)) ∧
    List.Forall₂ (fun n f => f.iri = n.identifier ∧ T.classDocuments settings n = .error f.cause)
      (T.classes.filter fun n => Fails (T.lineages n) ∨ Fails (T.classRecord n))
      (T.build settings).failures ∧
    (∀ n ∈ T.classes, (∀ m ∈ T.classes, m.identifier = n.identifier → m = n) →
      ((∃ f ∈ (T.build settings).failures, f.iri = n.identifier) ↔
        Fails (T.lineages n) ∨ Fails (T.classRecord n))) ∧
    List.Forall₂ (fun n f => f.iri = n.identifier ∧ T.classRecord n = .error f.cause)
      (T.classes.filter fun n => Fails (T.classRecord n)) T.resolveAll.failures ∧
    (T.resolveAll.failures.map (·.iri)).Sublist ((T.build settings).failures.map (·.iri)) := by
  have hbuild := forall₂_failures_build T settings
  have hresolve := forall₂_failures_resolveAll T
  refine ⟨fun n => fails_classRecord_iff, ⟨documents_build, rootEntries_eq, failures_eq⟩,
    fun n => ⟨contribution_of_fails, contribution_of_not_fails⟩, hbuild,
    fun n hn honly => listed_iff settings hn honly, hresolve, ?_⟩
  rw [map_iri_eq hbuild, map_iri_eq hresolve]
  refine List.Sublist.map _ (List.monotone_filter_right _ fun n hn => ?_)
  exact decide_eq_true (Or.inr (of_decide_eq_true hn))

/-- A house, and a class that has only the label of a blank node to go by. -/
def namelessClass : Taxonomy where
  store := .ofList
    [⟨.blank "b", Rdf.type, .iri Rdfs.classType⟩,
     ⟨.iri "http://x/o#House", Rdf.type, .iri Rdfs.classType⟩]
  namespaces := .empty

/-- The class without a name is reported and adds nothing else, and the house has its fragment. -/
theorem namelessClass_reported :
    .ofClass (.blank "b") ∈ namelessClass.classes ∧
      (∃ f ∈ (namelessClass.build {}).failures, f.iri = "_:b") ∧
      (namelessClass.contribution {} (.ofClass (.blank "b"))).documents = [] ∧
      (namelessClass.contribution {} (.ofClass (.iri "http://x/o#House"))).failure = none ∧
      (namelessClass.contribution {} (.ofClass (.iri "http://x/o#House"))).documents.countP
        (·.kind = .ontology) = 1 := by
  let House : Node := .ofClass (.iri "http://x/o#House")
  have hmem : .ofClass (.blank "b") ∈ namelessClass.classes := by decide
  have honly : ∀ m ∈ namelessClass.classes,
      m.identifier = (Node.ofClass (.blank "b")).identifier → m = .ofClass (.blank "b") := by
    decide
  have hnameless : Fails (namelessClass.title (.ofClass (.blank "b"))) := ⟨⟨"_:b"⟩, rfl⟩
  have hrecord : Fails (namelessClass.classRecord (.ofClass (.blank "b"))) :=
    fails_classRecord_iff.2 (Or.inl (fails_canonicalId_of_title hnameless))
  have hroot : namelessClass.realParents House = [] := by decide
  have htitle : namelessClass.title House = .ok "House" := by decide
  have hid : namelessClass.canonicalId House = .ok "o:House" :=
    canonicalId_eq_ok_iff.2 ⟨"o", "House", ["House"], by decide,
      canonicalTitles_of_root hroot htitle, by decide⟩
  have hnone : namelessClass.allProperties House = [] := by
    rw [allProperties, ancestors_of_root hroot]
    decide +kernel
  have hbuilds : ¬ (Fails (namelessClass.lineages House) ∨ Fails (namelessClass.classRecord House)) := by
    rw [lineages_of_root hroot htitle, fails_classRecord_iff, hid, hnone]
    simp [not_fails_ok]
  obtain ⟨-, -, hcontribution, -, hlisted, -⟩ := failing_classes_leave_nothing namelessClass {}
  obtain ⟨cause, hcause⟩ := (hcontribution (.ofClass (.blank "b"))).1 (Or.inr hrecord)
  obtain ⟨hfailure, -, hontology⟩ := (hcontribution House).2 hbuilds
  exact ⟨hmem, (hlisted _ hmem honly).2 (Or.inr hrecord), congrArg Contribution.documents hcause,
    hfailure, hontology⟩

end TaxonomyPress.Taxonomy
