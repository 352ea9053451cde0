import TaxonomyPress.Document.Build
import TaxonomyPress.Proofs.Traversal

/-!
# What a class publishes

* `Taxonomy.id_of_vocabulary`, `Taxonomy.urls_of_definition` : the addresses that documents give are
  read off the canonical identifier;
* `Taxonomy.classBodies_eq_ok` : the bodies of a class are its documents;
* `Taxonomy.lineageDocuments_subset_build` : every lineage of a class that succeeds has its documents
  among those that are built.
-/

namespace TaxonomyPress.Taxonomy

variable {T : Taxonomy}

/-! ## Addresses -/

theorem id_of_vocabulary {settings : Settings} {n : Node} {vocabulary : Vocabulary} {id : String}
    (h : T.vocabulary settings n = .ok vocabulary) (hid : T.canonicalId n = .ok id) :
    vocabulary.id = documentUrl settings.baseUrl .vocabulary (canonicalLineage id) := by
  unfold Taxonomy.vocabulary at h
  obtain ⟨id', hid', h⟩ := bind_eq_ok_iff.1 h
  obtain ⟨attributes, -, h⟩ := bind_eq_ok_iff.1 h
  obtain rfl : _ = vocabulary := Except.ok.inj h
  obtain rfl : id = id' := Except.ok.inj (hid.symm.trans hid')
  rfl

/-- What a record says of the class itself. -/
theorem fields_of_classRecord {n : Node} {record : ClassRecord} (h : T.classRecord n = .ok record) :
    T.canonicalId n = .ok record.canonicalId ∧ T.title n = .ok record.title ∧
      record.descendantIds = sortWith compareText ((T.descendants n).map T.compactId) := by
  unfold classRecord at h
  obtain ⟨records, -, h⟩ := bind_eq_ok_iff.1 h
  obtain ⟨id, hid, h⟩ := bind_eq_ok_iff.1 h
  obtain ⟨title, htitle, h⟩ := bind_eq_ok_iff.1 h
  obtain rfl : _ = record := Except.ok.inj h
  exact ⟨hid, htitle, rfl⟩

theorem urls_of_definition {settings : Settings} {n : Node} {definition : Definition} {id : String}
    (h : T.definition settings n = .ok definition) (hid : T.canonicalId n = .ok id) :
    definition.id = documentUrl settings.baseUrl .classDefinitions (canonicalLineage id) ∧
      definition.contextUrl =
        documentUrl settings.baseUrl .context (canonicalLineage id) ++ ".jsonld" := by
  unfold Taxonomy.definition at h
  obtain ⟨record, hrecord, h⟩ := bind_eq_ok_iff.1 h
  obtain rfl : _ = definition := Except.ok.inj h
  have hid' : T.canonicalId n = .ok record.canonicalId := (fields_of_classRecord hrecord).1
  obtain rfl : id = record.canonicalId := Except.ok.inj (hid.symm.trans hid')
  exact ⟨rfl, rfl⟩

/-! ## Documents -/

/-- An empty list names no class. -/
theorem isNamedIn_nil (T : Taxonomy) (n : Node) : T.isNamedIn [] n = false := by
  unfold isNamedIn
  cases T.canonicalId n <;> rfl

/-- The bodies of a class are its documents. Unless it is excluded it has a definition, and an
identity stands beside that. -/
theorem classBodies_eq_ok {settings : Settings} {n : Node} {bodies : ClassBodies}
    (h : T.classBodies settings n = .ok bodies) :
    T.vocabulary settings n = .ok bodies.vocabulary ∧
      (settings.excludes T n = false → bodies.definition.isSome) ∧
      ∀ definition ∈ bodies.definition, T.definition settings n = .ok definition ∧
        ∃ identity, bodies.identity = some identity := by
  unfold classBodies at h
  obtain ⟨vocabulary, hvocabulary, h⟩ := bind_eq_ok_iff.1 h
  split at h
  · rename_i hexcluded
    obtain rfl : _ = bodies := Except.ok.inj h
    refine ⟨hvocabulary, fun hnot => ?_, fun definition hdefinition => ?_⟩
    · rw [hexcluded] at hnot
      cases hnot
    · cases hdefinition
  · obtain ⟨identity, -, h⟩ := bind_eq_ok_iff.1 h
    obtain ⟨definition, hdefinition, h⟩ := bind_eq_ok_iff.1 h
    obtain rfl : _ = bodies := Except.ok.inj h
    refine ⟨hvocabulary, fun _ => rfl, fun d hd => ?_⟩
    obtain rfl : definition = d := Option.some.inj hd
    exact ⟨hdefinition, identity, rfl⟩

/-- A class that is not excluded has all three bodies. -/
theorem exists_bodies_of_included {settings : Settings} {n : Node} {bodies : ClassBodies}
    (h : T.classBodies settings n = .ok bodies) (hincluded : settings.excludes T n = false) :
    ∃ vocabulary identity definition, bodies = ⟨vocabulary, some identity, some definition⟩ ∧
      T.vocabulary settings n = .ok vocabulary ∧ T.identity settings n = .ok identity ∧
      T.definition settings n = .ok definition := by
  unfold classBodies at h
  rw [hincluded] at h
  obtain ⟨vocabulary, hvocabulary, h⟩ := bind_eq_ok_iff.1 h
  obtain ⟨identity, hidentity, h⟩ := bind_eq_ok_iff.1 h
  obtain ⟨definition, hdefinition, h⟩ := bind_eq_ok_iff.1 h
  exact ⟨vocabulary, identity, definition, (pure_eq_ok_iff.1 h).symm, hvocabulary, hidentity,
    hdefinition⟩

/-- An excluded class has a vocabulary only. -/
theorem exists_bodies_of_excluded {settings : Settings} {n : Node} {bodies : ClassBodies}
    (h : T.classBodies settings n = .ok bodies) (hexcluded : settings.excludes T n = true) :
    ∃ vocabulary, bodies = ⟨vocabulary, none, none⟩ := by
  unfold classBodies at h
  obtain ⟨vocabulary, -, h⟩ := bind_eq_ok_iff.1 h
  rw [if_pos hexcluded] at h
  exact ⟨vocabulary, (pure_eq_ok_iff.1 h).symm⟩

theorem classDocuments_eq_ok {settings : Settings} {n : Node} {bodies : ClassBodies}
    {lineages : List Lineage} {id : String} (hlineages : T.lineages n = .ok lineages)
    (hbodies : T.classBodies settings n = .ok bodies) (hid : T.canonicalId n = .ok id) :
    T.classDocuments settings n = .ok (lineages.flatMap (T.lineageDocuments settings n bodies) ++
      [⟨.ontology, documentPath .ontology (canonicalLineage id), T.fragment settings n⟩]) := by
  unfold classDocuments
  rw [hlineages, hbodies, hid]
  rfl

/-- A class that succeeds has its documents among all. -/
theorem classDocuments_subset_build {settings : Settings} {n : Node} {documents : List Document}
    (hn : n ∈ T.classes) (h : T.classDocuments settings n = .ok documents) :
    documents ⊆ (T.build settings).documents := by
  intro document hdocument
  refine List.mem_append_left _ (List.mem_flatMap.2 ⟨⟨n, .ok documents⟩, ?_, hdocument⟩)
  rw [← h]
  exact List.mem_map_of_mem hn

/-- Every lineage has its documents. -/
theorem lineageDocuments_subset_build {settings : Settings} {n : Node} {bodies : ClassBodies}
    {lineages : List Lineage} {id : String} (hn : n ∈ T.classes)
    (hlineages : T.lineages n = .ok lineages) (hbodies : T.classBodies settings n = .ok bodies)
    (hid : T.canonicalId n = .ok id) {l : Lineage} (hl : l ∈ lineages) :
    T.lineageDocuments settings n bodies l ⊆ (T.build settings).documents := by
  intro document hdocument
  apply classDocuments_subset_build hn (classDocuments_eq_ok hlineages hbodies hid)
  exact List.mem_append_left _ (List.mem_flatMap.2 ⟨l, hl, hdocument⟩)

theorem sortNodes_nil : T.sortNodes [] = [] := by
  simp [sortNodes, sortWith, distinctBy, distinctFrom]

/-- Where nothing has a domain, no class has properties. -/
theorem allProperties_eq_nil (h : ∀ t ∈ T.store.triples, t.predicate ≠ Rdfs.domain) (n : Node) :
    T.allProperties n = [] := by
  have hdeclared : ∀ m, T.declaredProperties m = [] := by
    intro m
    have hsubjects : T.store.subjects Rdfs.domain m.term = [] :=
      List.eq_nil_iff_forall_not_mem.2 fun p hp => h _ (Store.mem_subjects.1 hp) rfl
    unfold declaredProperties
    rw [hsubjects]
    exact sortNodes_nil
  unfold allProperties
  rw [hdeclared, List.flatMap_eq_nil_iff.2 fun m _ => hdeclared m]
  exact sortNodes_nil

/-- A class without properties fails for its own name only. -/
theorem exists_classBodies (settings : Settings) {n : Node} {id title : String}
    (hid : T.canonicalId n = .ok id) (htitle : T.title n = .ok title)
    (hnone : T.allProperties n = []) : ∃ bodies, T.classBodies settings n = .ok bodies := by
  unfold classBodies Taxonomy.vocabulary Taxonomy.identity Taxonomy.definition classRecord
  rw [hid, htitle, hnone]
  cases settings.excludes T n
  · exact ⟨_, rfl⟩
  · exact ⟨_, rfl⟩

end TaxonomyPress.Taxonomy
