import TaxonomyPress.Proofs.Documents
import TaxonomyPress.Proofs.PathNames

/-!
# Where the documents of a build lie

* `Taxonomy.addresses` : the section and the titles of each document that a class adds;
* `Taxonomy.buildAddresses` : those of a build, in its order (`Taxonomy.map_path_documents`);
* `Taxonomy.isSafe_documents_iff` : when all documents stay below their directory.
-/

namespace TaxonomyPress.Taxonomy

variable {T : Taxonomy} {settings : Settings}

/-- The sections and titles of the documents of the class `n` under one of its lineages. The index
is the document of a further title. -/
def lineageAddresses (T : Taxonomy) (n : Node) (bodies : ClassBodies) (l : Lineage) :
    List (Section × Lineage) :=
  [(.vocabulary, l)]
    ++ (bodies.identity.map fun _ => (.context, l)).toList
    ++ (bodies.definition.map fun _ => (.classDefinitions, l)).toList
    ++ (if T.hasChildren n then [(.vocabulary, l ++ ["index"])] else [])

/-- The sections and titles of the documents that the class `n` adds. -/
def addresses (T : Taxonomy) (settings : Settings) (n : Node) : List (Section × Lineage) :=
  match T.lineages n, T.classBodies settings n, T.canonicalId n with
  | .ok lineages, .ok bodies, .ok id =>
    lineages.flatMap (T.lineageAddresses n bodies) ++ [(.ontology, canonicalLineage id)]
  | _, _, _ => []

/-- The sections and titles of all documents. -/
def buildAddresses (T : Taxonomy) (settings : Settings) : List (Section × Lineage) :=
  T.classes.flatMap (T.addresses settings) ++ [(.vocabulary, ["index"])]

theorem map_path_lineageDocuments (n : Node) (bodies : ClassBodies) (l : Lineage) :
    (T.lineageDocuments settings n bodies l).map Document.path =
      (T.lineageAddresses n bodies l).map fun a => documentPath a.1 a.2 := by
  unfold lineageDocuments lineageAddresses
  simp only [List.map_append, indexPath_eq_documentPath]
  congr 1
  · cases bodies.identity <;> cases bodies.definition <;> rfl
  · split <;> rfl

theorem Built.addresses_eq {n : Node} {lineages : List Lineage} {bodies : ClassBodies} {id : String}
    (h : T.Built settings n lineages bodies id) : T.addresses settings n =
      lineages.flatMap (T.lineageAddresses n bodies) ++ [(.ontology, canonicalLineage id)] := by
  unfold addresses
  rw [h.lineages_eq, h.bodies_eq, h.canonicalId_eq]

/-- The settings and the children of a class decide which documents it has under a lineage. -/
theorem Built.lineageAddresses_eq {n : Node} {lineages : List Lineage} {bodies : ClassBodies}
    {id : String} (h : T.Built settings n lineages bodies id) (l : Lineage) :
    T.lineageAddresses n bodies l = (.vocabulary, l) ::
      ((if settings.excludes T n then [] else [(.context, l), (.classDefinitions, l)]) ++
        if T.hasChildren n then [(.vocabulary, l ++ ["index"])] else []) := by
  unfold lineageAddresses
  cases hexcluded : settings.excludes T n with
  | true =>
    obtain ⟨vocabulary, rfl⟩ := exists_bodies_of_excluded h.bodies_eq hexcluded
    rfl
  | false =>
    obtain ⟨vocabulary, identity, definition, rfl, -⟩ :=
      exists_bodies_of_included h.bodies_eq hexcluded
    rfl

theorem mem_addresses_iff {n : Node} {a : Section × Lineage} :
    a ∈ T.addresses settings n ↔ ∃ lineages bodies id, T.Built settings n lineages bodies id ∧
      ((∃ l ∈ lineages, a ∈ T.lineageAddresses n bodies l) ∨
        a = (.ontology, canonicalLineage id)) := by
  constructor
  · intro h
    unfold addresses at h
    split at h
    · rename_i lineages bodies id hlineages hbodies hid
      rw [List.mem_append, List.mem_flatMap, List.mem_singleton] at h
      exact ⟨lineages, bodies, id, ⟨hlineages, hbodies, hid⟩, h⟩
    · cases h
  · rintro ⟨lineages, bodies, id, hbuilt, h⟩
    rw [hbuilt.addresses_eq, List.mem_append, List.mem_flatMap, List.mem_singleton]
    exact h

/-- A class that fails has no documents. -/
theorem addresses_eq_nil {n : Node} (h : Fails (T.classDocuments settings n)) :
    T.addresses settings n = [] := by
  refine List.eq_nil_iff_forall_not_mem.2 fun a ha => ?_
  obtain ⟨lineages, bodies, id, hbuilt, -⟩ := mem_addresses_iff.1 ha
  exact not_fails_iff.2 ⟨_, classDocuments_eq_ok_iff.2 ⟨lineages, bodies, id, hbuilt, rfl⟩⟩ h

theorem map_path_builtDocuments (n : Node) :
    (T.builtDocuments settings n).map Document.path =
      (T.addresses settings n).map fun a => documentPath a.1 a.2 := by
  unfold builtDocuments ClassOutcome.documents
  split
  · rename_i documents hdocuments
    obtain ⟨lineages, bodies, id, hbuilt, rfl⟩ := classDocuments_eq_ok_iff.1 hdocuments
    rw [hbuilt.addresses_eq, List.map_append, List.map_append, List.map_flatMap, List.map_flatMap]
    simp only [map_path_lineageDocuments]
    rfl
  · rename_i cause hcause
    rw [addresses_eq_nil ⟨cause, hcause⟩]
    rfl

/-- The documents of a build lie where its addresses say, in their order. -/
theorem map_path_documents :
    (T.build settings).documents.map Document.path =
      (T.buildAddresses settings).map fun a => documentPath a.1 a.2 := by
  rw [documents_build, buildAddresses, List.map_append, List.map_append, List.map_flatMap,
    List.map_flatMap]
  simp only [map_path_builtDocuments]
  show _ ++ [rootIndexPath] = _ ++ [documentPath .vocabulary ([] ++ ["index"])]
  rw [← indexPath_eq_documentPath]
  rfl

theorem exists_address_of_mem_documents {d : Document} (hd : d ∈ (T.build settings).documents) :
    ∃ a ∈ T.buildAddresses settings, documentPath a.1 a.2 = d.path := by
  have hpath : d.path ∈ (T.build settings).documents.map Document.path := List.mem_map_of_mem hd
  rw [map_path_documents] at hpath
  exact List.mem_map.1 hpath

theorem ne_nil_of_mem_lineages {n : Node} {lineages : List Lineage}
    (h : T.lineages n = .ok lineages) {l : Lineage} (hl : l ∈ lineages) : l ≠ [] := by
  obtain ⟨path, hpath, htitles⟩ := lineages_sound h hl
  obtain ⟨rest, rfl⟩ := hpath.eq_cons
  have hlength := (mapM_eq_ok_iff.1 htitles).length_eq
  rintro rfl
  simp at hlength

theorem mem_lineageAddresses {n : Node} {bodies : ClassBodies} {l : Lineage}
    {a : Section × Lineage} (h : a ∈ T.lineageAddresses n bodies l) :
    a.2 = l ∨ (T.hasChildren n ∧ a = (.vocabulary, l ++ ["index"])) := by
  unfold lineageAddresses at h
  simp only [List.mem_append, List.mem_singleton, Option.mem_toList, Option.map_eq_some_iff,
    List.mem_ite_nil_right] at h
  rcases h with ((rfl | ⟨_, -, rfl⟩) | ⟨_, -, rfl⟩) | h
  · exact Or.inl rfl
  · exact Or.inl rfl
  · exact Or.inl rfl
  · exact Or.inr h

theorem isSafe_documents_iff_safeTitles :
    (∀ d ∈ (T.build settings).documents, d.path.isSafe = true) ↔
      ∀ a ∈ T.buildAddresses settings, SafeTitles a.2 := by
  rw [← List.forall_mem_map (f := Document.path) (P := fun path => path.isSafe = true),
    map_path_documents, List.forall_mem_map]
  simp only [isSafe_documentPath_iff]

/-- Every document has a title. -/
theorem ne_nil_of_mem_buildAddresses {a : Section × Lineage} (ha : a ∈ T.buildAddresses settings) :
    a.2 ≠ [] := by
  rcases List.mem_append.1 ha with ha | ha
  · obtain ⟨n, -, ha⟩ := List.mem_flatMap.1 ha
    obtain ⟨lineages, bodies, id, hbuilt, ⟨l, hl, ha⟩ | rfl⟩ := mem_addresses_iff.1 ha
    · rcases mem_lineageAddresses ha with rfl | ⟨-, rfl⟩
      · exact ne_nil_of_mem_lineages hbuilt.lineages_eq hl
      · exact List.append_ne_nil_of_right_ne_nil _ (List.cons_ne_nil _ _)
    · exact canonicalLineage_ne_nil id
  · rw [List.mem_singleton.1 ha]
    exact List.cons_ne_nil _ _

/-- **Safe builds**: all documents stay below their directory just when the lineages of every class
that is built are safe, those of a class with children also as directories, and its canonical
identifier gives no title `..` before the last. -/
theorem isSafe_documents_iff :
    (∀ d ∈ (T.build settings).documents, d.path.isSafe = true) ↔
      ∀ n ∈ T.classes, ∀ lineages bodies id, T.Built settings n lineages bodies id →
        (∀ l ∈ lineages, SafeTitles l ∧ (T.hasChildren n → SafeTitles (l ++ ["index"]))) ∧
          ".." ∉ (canonicalLineage id).dropLast := by
  rw [isSafe_documents_iff_safeTitles]
  simp only [← safeTitles_canonicalLineage_iff]
  constructor
  · intro h n hn lineages bodies id hbuilt
    have hmem : ∀ a ∈ T.addresses settings n, SafeTitles a.2 := fun a ha =>
      h a (List.mem_append_left _ (List.mem_flatMap.2 ⟨n, hn, ha⟩))
    rw [hbuilt.addresses_eq] at hmem
    have hlineage : ∀ l ∈ lineages, ∀ a ∈ T.lineageAddresses n bodies l, SafeTitles a.2 :=
      fun l hl a ha => hmem a (List.mem_append_left _ (List.mem_flatMap.2 ⟨l, hl, ha⟩))
    have hfragment : SafeTitles (canonicalLineage id) :=
      hmem _ (List.mem_append_right _ List.mem_cons_self)
    refine ⟨fun l hl => ⟨?_, fun hchildren => ?_⟩, hfragment⟩
    · exact hlineage l hl (.vocabulary, l) (by simp [lineageAddresses])
    · exact hlineage l hl (.vocabulary, l ++ ["index"]) (by simp [lineageAddresses, hchildren])
  · intro h a ha
    rcases List.mem_append.1 ha with ha | ha
    · obtain ⟨n, hn, ha⟩ := List.mem_flatMap.1 ha
      obtain ⟨lineages, bodies, id, hbuilt, ⟨l, hl, ha⟩ | rfl⟩ := mem_addresses_iff.1 ha
      · obtain ⟨hsafe, hindex⟩ := (h n hn lineages bodies id hbuilt).1 l hl
        rcases mem_lineageAddresses ha with rfl | ⟨hchildren, rfl⟩
        · exact hsafe
        · exact hindex hchildren
      · exact (h n hn lineages bodies id hbuilt).2
    · rw [List.mem_singleton.1 ha]
      exact safeTitles_index_iff (l := []).2 ⟨rfl, fun _ h => absurd h List.not_mem_nil⟩

end TaxonomyPress.Taxonomy
