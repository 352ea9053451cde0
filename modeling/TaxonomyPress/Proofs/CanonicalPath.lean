import Mathlib.Data.List.Permutation
import TaxonomyPress.Proofs.FirstParents
import TaxonomyPress.Proofs.Pieces
import TaxonomyPress.Proofs.Publication

/-!
# The canonical path among the lineages

* `Taxonomy.PublishedUnder` : the documents of a class lie under a lineage and give its addresses;
* `Taxonomy.soleClass` : the graph of one class; `Taxonomy.estate` : one of five, of which one has two
  ways up, one is excluded and one has no name;
* `Taxonomy.canonical_path_among_lineages` : the canonical path is the end of a lineage, and where
  the chain of first parents leaves no parent out the class is published under it.
-/

namespace TaxonomyPress.Taxonomy

variable {T : Taxonomy}

/-! ## Published classes -/

/-- The documents of `n` lie under `lineage`, and the addresses that they give are those of it. -/
structure PublishedUnder (T : Taxonomy) (settings : Settings) (n : Node) (bodies : ClassBodies)
    (lineage : Lineage) : Prop where
  vocabulary_id : bodies.vocabulary.id = documentUrl settings.baseUrl .vocabulary lineage
  vocabulary_mem : ⟨.vocabulary, documentPath .vocabulary lineage, bodies.vocabulary.toJson⟩ ∈
    (T.build settings).documents
  definition_isSome : settings.excludes T n = false → bodies.definition.isSome
  definition_id : ∀ definition ∈ bodies.definition,
    definition.id = documentUrl settings.baseUrl .classDefinitions lineage
  definition_mem : ∀ definition ∈ bodies.definition,
    ⟨.definition, documentPath .classDefinitions lineage, definition.toJson⟩ ∈
      (T.build settings).documents
  definition_context : ∀ definition ∈ bodies.definition,
    definition.contextUrl = documentUrl settings.baseUrl .context lineage ++ ".jsonld"
  identity_mem : ∀ definition ∈ bodies.definition, ∃ identity ∈ bodies.identity,
    ⟨.identity, documentPath .context lineage, identity.toJson⟩ ∈ (T.build settings).documents

theorem publishedUnder_of_mem_lineages {settings : Settings} {n : Node} {bodies : ClassBodies}
    {lineages : List Lineage} {front : String} {titles : Lineage} (hn : n ∈ T.classes)
    (hlineages : T.lineages n = .ok lineages) (hbodies : T.classBodies settings n = .ok bodies)
    (hid : T.canonicalId n = .ok (front ++ ":" ++ Text.join "/" titles))
    (hfront : ':' ∉ front.toList) (hmem : titles ∈ lineages) :
    T.PublishedUnder settings n bodies titles := by
  obtain ⟨hvocabulary, hsome, hdefinition⟩ := classBodies_eq_ok hbodies
  have hbuilt := lineageDocuments_subset_build hn hlineages hbodies hid hmem
  unfold lineageDocuments at hbuilt
  have hurl : ∀ area, documentUrl settings.baseUrl area
      (canonicalLineage (front ++ ":" ++ Text.join "/" titles)) =
        documentUrl settings.baseUrl area titles :=
    fun area => documentUrl_canonicalLineage settings.baseUrl area titles hfront
  constructor
  case vocabulary_id => rw [id_of_vocabulary hvocabulary hid, hurl]
  case vocabulary_mem =>
    apply hbuilt
    simp
  case definition_isSome => exact hsome
  case definition_id =>
    intro definition hd
    rw [(urls_of_definition (hdefinition definition hd).1 hid).1, hurl]
  case definition_mem =>
    intro definition hd
    apply hbuilt
    simp [Option.mem_def.1 hd]
  case definition_context =>
    intro definition hd
    rw [(urls_of_definition (hdefinition definition hd).1 hid).2, hurl]
  case identity_mem =>
    intro definition hd
    obtain ⟨-, identity, hidentity⟩ := hdefinition definition hd
    refine ⟨identity, hidentity, ?_⟩
    apply hbuilt
    simp [hidentity]

/-! ## Sole classes -/

/-- The graph of one class. -/
def soleClass (iri : String) : Taxonomy where
  store := .ofList [⟨.iri iri, Rdf.type, .iri Rdfs.classType⟩]
  namespaces := .empty

theorem predicate_soleClass {iri : String} {t : Triple} (h : t ∈ (soleClass iri).store.triples) :
    t.predicate = Rdf.type := by
  obtain rfl := List.mem_singleton.1 (Store.mem_triples_ofList.1 h)
  rfl

theorem realParents_soleClass (iri : String) (n : Node) : (soleClass iri).realParents n = [] := by
  refine List.eq_nil_iff_forall_not_mem.2 fun p hp => ?_
  have hpredicate : parentPredicate n.kind = Rdf.type :=
    predicate_soleClass (mem_realParents_iff.1 hp).declared
  have hne : parentPredicate n.kind ≠ Rdf.type := by
    cases n.kind <;> decide
  exact hne hpredicate

theorem allProperties_soleClass (iri : String) (n : Node) :
    (soleClass iri).allProperties n = [] := by
  refine allProperties_eq_nil (fun t ht hdomain => ?_) n
  rw [predicate_soleClass ht] at hdomain
  exact absurd hdomain (by decide)

/-! ## An estate -/

def estateSettings : Settings := { excludedClasses := ["http://x/o#Garden"] }

/-- Two ways lead up from a garden house: one to a building over a house, one to a garden, which the
settings exclude. A further class has no name. -/
def estate : Taxonomy where
  store := .ofList
    [⟨.iri "http://x/o#Building", Rdf.type, .iri Rdfs.classType⟩,
     ⟨.iri "http://x/o#House", Rdf.type, .iri Rdfs.classType⟩,
     ⟨.iri "http://x/o#House", Rdfs.subClassOf, .iri "http://x/o#Building"⟩,
     ⟨.iri "http://x/o#Garden", Rdf.type, .iri Rdfs.classType⟩,
     ⟨.iri "http://x/o#GardenHouse", Rdf.type, .iri Rdfs.classType⟩,
     ⟨.iri "http://x/o#GardenHouse", Rdfs.subClassOf, .iri "http://x/o#House"⟩,
     ⟨.iri "http://x/o#GardenHouse", Rdfs.subClassOf, .iri "http://x/o#Garden"⟩,
     ⟨.blank "shed", Rdf.type, .iri Rdfs.classType⟩]
  namespaces := .empty

/-- The classes of the estate that have a name, with their lineages and canonical identifiers. -/
def estateClasses : List (Node × List Lineage × String) :=
  [(.ofClass (.iri "http://x/o#Building"), [["Building"]], "o:Building"),
   (.ofClass (.iri "http://x/o#House"), [["Building", "House"]], "o:Building/House"),
   (.ofClass (.iri "http://x/o#Garden"), [["Garden"]], "o:Garden"),
   (.ofClass (.iri "http://x/o#GardenHouse"),
     [["Building", "House", "GardenHouse"], ["Garden", "GardenHouse"]],
     "o:Building/House/GardenHouse")]

/-- The classes of the estate and their names. No property has a domain. -/
theorem estate_named :
    estate.classes = estateClasses.map Prod.fst ++ [.ofClass (.blank "shed")] ∧
      (∀ c ∈ estateClasses, estate.split c.1 = .ok ("o", (c.2.1.headD []).getLastD "") ∧
        "o" ++ ":" ++ Text.join "/" (c.2.1.headD []) = c.2.2) ∧
      ∀ t ∈ estate.store.triples, t.predicate ≠ Rdfs.domain := by
  decide +kernel

theorem classes_estate :
    estate.classes = estateClasses.map Prod.fst ++ [.ofClass (.blank "shed")] :=
  estate_named.1

theorem split_estate {c : Node × List Lineage × String} (hc : c ∈ estateClasses) :
    estate.split c.1 = .ok ("o", (c.2.1.headD []).getLastD "") :=
  (estate_named.2.1 c hc).1

theorem title_estate : ∀ c ∈ estateClasses,
    estate.title c.1 = .ok ((c.2.1.headD []).getLastD "") :=
  fun _ hc => title_eq_ok_iff.2 ⟨_, split_estate hc⟩

theorem lineages_estate : ∀ c ∈ estateClasses, estate.lineages c.1 = .ok c.2.1 := by
  unfold estateClasses
  simp only [List.forall_mem_cons]
  refine ⟨?building, ?house, ?garden, ?gardenHouse, List.forall_mem_nil _⟩
  case building => cbv
  case house => cbv
  case garden => cbv
  case gardenHouse => cbv

theorem firstParents_estate : estateClasses.map (fun c => estate.firstParents c.1) =
    [[], [.ofClass (.iri "http://x/o#Building")], [],
      [.ofClass (.iri "http://x/o#House"), .ofClass (.iri "http://x/o#Building")]] := by
  simp only [firstParents_eq_reached]
  cbv

theorem canonicalTitles_estate : ∀ c ∈ estateClasses,
    estate.canonicalTitles c.1 = .ok (c.2.1.headD []) := by
  have hchains := firstParents_estate
  have htitles := title_estate
  unfold estateClasses at hchains htitles ⊢
  simp only [List.map_cons, List.cons.injEq] at hchains
  simp only [List.forall_mem_cons] at htitles
  obtain ⟨hbuilding, hhouse, hgarden, hgardenHouse, -⟩ := hchains
  obtain ⟨htitle₁, htitle₂, htitle₃, htitle₄, -⟩ := htitles
  simp only [List.forall_mem_cons, canonicalTitles, hbuilding, hhouse, hgarden, hgardenHouse,
    List.mapM_cons, List.mapM_nil, htitle₁, htitle₂, htitle₃, htitle₄]
  exact ⟨rfl, rfl, rfl, rfl, List.forall_mem_nil _⟩

/-- The canonical identifiers follow the first lineages. -/
theorem canonicalId_estate : ∀ c ∈ estateClasses, estate.canonicalId c.1 = .ok c.2.2 := by
  intro c hc
  exact canonicalId_eq_ok_iff.2
    ⟨_, _, _, split_estate hc, canonicalTitles_estate c hc, (estate_named.2.1 c hc).2⟩

theorem exists_classBodies_estate : ∀ c ∈ estateClasses, ∃ bodies,
    estate.classBodies estateSettings c.1 = .ok bodies := by
  intro c hc
  exact exists_classBodies estateSettings (canonicalId_estate c hc) (title_estate c hc)
    (allProperties_eq_nil estate_named.2.2 c.1)

/-! ## The loop with an exit -/

theorem firstParents_loopWithExit_A :
    loopWithExit.firstParents (.ofClass (.iri "http://x/o#A")) = [.ofClass (.iri "http://x/o#B")] := by
  let A : Node := .ofClass (.iri "http://x/o#A")
  let B : Node := .ofClass (.iri "http://x/o#B")
  have hA : loopWithExit.parentSteps.firstChain [A.key] A =
      B :: loopWithExit.parentSteps.firstChain [B.key, A.key] B :=
    firstChain_eq_cons (by decide +kernel) (by decide +kernel)
  have hB : loopWithExit.parentSteps.firstChain [B.key, A.key] B = [] :=
    firstChain_eq_nil (by decide +kernel)
  rw [hB] at hA
  exact hA

/-! ## The main result -/

/-- **The canonical path among the lineages**, on every graph: the titles that the canonical
identifier writes are the end of a lineage. They are a lineage if the chain of first parents has left
no parent out; then the class is published under them, unless its prefix has a colon. -/
theorem canonical_path_among_lineages (T : Taxonomy) (c : Term) {id : String}
    {lineages : List Lineage} (hid : T.canonicalId (.ofClass c) = .ok id)
    (hlineages : T.lineages (.ofClass c) = .ok lineages) :
    ∃ front title titles, T.split (.ofClass c) = .ok (front, title) ∧
      T.canonicalTitles (.ofClass c) = .ok titles ∧ id = front ++ ":" ++ Text.join "/" titles ∧
      (∃ l ∈ lineages, titles <:+ l) ∧
      (T.ChainExhausted (.ofClass c) → titles ∈ lineages ∧
        (':' ∉ front.toList → ∀ settings bodies, .ofClass c ∈ T.classes →
          T.classBodies settings (.ofClass c) = .ok bodies →
          T.PublishedUnder settings (.ofClass c) bodies titles)) ∧
      (T.store.Unambiguous →
        (T.AncestorPath (.ofClass c) (.ofClass c :: T.firstParents (.ofClass c)) ↔
          T.ChainExhausted (.ofClass c)) ∧
        ((∀ m, m = .ofClass c ∨ T.Above (.ofClass c) m → ¬ T.Above m m) →
          T.ChainExhausted (.ofClass c))) := by
  obtain ⟨front, title, titles, hsplit, htitles, rfl⟩ := canonicalId_eq_ok_iff.1 hid
  refine ⟨front, title, titles, hsplit, htitles, rfl, ?_, fun hchain => ?_, fun hT => ?_⟩
  · exact canonicalTitles_suffix htitles hlineages
  · have hmem := canonicalTitles_mem_lineages htitles hlineages hchain
    refine ⟨hmem, fun hfront settings bodies hn hbodies => ?_⟩
    exact publishedUnder_of_mem_lineages hn hlineages hbodies hid hfront hmem
  · exact ⟨ancestorPath_firstParents_iff hT, chainExhausted_of_acyclic hT⟩

/-- A garden house is published under the titles of the house and the building above it. -/
theorem gardenHouse_published : ∃ bodies,
    estate.classBodies estateSettings (.ofClass (.iri "http://x/o#GardenHouse")) = .ok bodies ∧
      estate.PublishedUnder estateSettings (.ofClass (.iri "http://x/o#GardenHouse")) bodies
        ["Building", "House", "GardenHouse"] := by
  let gardenHouse : Node := .ofClass (.iri "http://x/o#GardenHouse")
  have hmem : (gardenHouse, [["Building", "House", "GardenHouse"], ["Garden", "GardenHouse"]],
      "o:Building/House/GardenHouse") ∈ estateClasses :=
    .tail _ (.tail _ (.tail _ (.head _)))
  have htitles : estate.canonicalTitles gardenHouse = .ok ["Building", "House", "GardenHouse"] :=
    canonicalTitles_estate _ hmem
  have hchain : estate.ChainExhausted gardenHouse := by
    have hchains := firstParents_estate
    unfold estateClasses at hchains
    simp only [List.map_cons, List.cons.injEq] at hchains
    obtain ⟨-, -, -, hfirst, -⟩ := hchains
    have hroot : estate.realParents (.ofClass (.iri "http://x/o#Building")) = [] := by decide
    intro last hlast p hp
    rw [hfirst] at hlast
    obtain rfl : .ofClass (.iri "http://x/o#Building") = last := Option.some.inj hlast
    have hparent := mem_realParents_iff.2 hp
    rw [hroot] at hparent
    cases hparent
  have hclass : gardenHouse ∈ estate.classes := by
    rw [classes_estate]
    exact List.mem_append_left _ (List.mem_map_of_mem hmem)
  obtain ⟨bodies, hbodies⟩ := exists_classBodies_estate _ hmem
  obtain ⟨front, title, titles, hsplit, htitles', -, -, hpublished, -⟩ :=
    canonical_path_among_lineages estate (.iri "http://x/o#GardenHouse")
      (canonicalId_estate _ hmem) (lineages_estate _ hmem)
  obtain ⟨rfl, -⟩ := Prod.mk.inj (Except.ok.inj (hsplit.symm.trans (split_estate hmem)))
  obtain rfl : titles = ["Building", "House", "GardenHouse"] :=
    Except.ok.inj (htitles'.symm.trans htitles)
  exact ⟨bodies, hbodies, (hpublished hchain).2 (by decide) estateSettings bodies hclass hbodies⟩

/-- Two classes whose documents give no address of their own: on the loop with an exit the canonical
path stops short of the exit, and a colon in the prefix goes into the path. -/
theorem canonical_path_missed :
    (loopWithExit.canonicalId (.ofClass (.iri "http://x/o#A")) = .ok "o:B/A" ∧
      loopWithExit.canonicalTitles (.ofClass (.iri "http://x/o#A")) = .ok ["B", "A"] ∧
      loopWithExit.lineages (.ofClass (.iri "http://x/o#A")) = .ok [["D", "B", "A"]] ∧
      ["B", "A"] ∉ [["D", "B", "A"]]) ∧
    (soleClass "urn:x#A").canonicalId (.ofClass (.iri "urn:x#A")) = .ok "urn:x:A" ∧
      (soleClass "urn:x#A").lineages (.ofClass (.iri "urn:x#A")) = .ok [["A"]] ∧
      ∃ bodies, (soleClass "urn:x#A").classBodies {} (.ofClass (.iri "urn:x#A")) = .ok bodies ∧
        bodies.vocabulary.id = "https://standards.oftrust.net/v1/Vocabulary/x:A" ∧
        documentUrl "https://standards.oftrust.net/v1/" .vocabulary ["A"] =
          "https://standards.oftrust.net/v1/Vocabulary/A" := by
  have htitles : loopWithExit.canonicalTitles (.ofClass (.iri "http://x/o#A")) = .ok ["B", "A"] := by
    rw [canonicalTitles_eq_ok_iff, firstParents_loopWithExit_A]
    exact mapM_eq_ok_iff.2 (.cons title_loopWithExit_B (.cons title_loopWithExit_A .nil))
  have hsplit : loopWithExit.split (.ofClass (.iri "http://x/o#A")) = .ok ("o", "A") := by
    decide +kernel
  refine ⟨⟨?_, htitles, lineages_loopWithExit_A, by decide⟩, ?_⟩
  · exact canonicalId_eq_ok_iff.2 ⟨"o", "A", ["B", "A"], hsplit, htitles, by decide⟩
  · let T := soleClass "urn:x#A"
    let A : Node := .ofClass (.iri "urn:x#A")
    have hroot : T.realParents A = [] := realParents_soleClass _ _
    have hsplit : T.split A = .ok ("urn:x", "A") := by decide
    have htitle : T.title A = .ok "A" := by decide
    have hid : T.canonicalId A = .ok "urn:x:A" :=
      canonicalId_eq_ok_iff.2
        ⟨"urn:x", "A", ["A"], hsplit, canonicalTitles_of_root hroot htitle, by decide⟩
    obtain ⟨bodies, hbodies⟩ := exists_classBodies {} hid htitle (allProperties_soleClass _ _)
    refine ⟨hid, lineages_of_root hroot htitle, bodies, hbodies, ?_, by decide⟩
    rw [id_of_vocabulary (classBodies_eq_ok hbodies).1 hid]
    decide +kernel

end TaxonomyPress.Taxonomy
