import TaxonomyPress.Document.Build
import TaxonomyPress.Proofs.Inheritance
import TaxonomyPress.Proofs.Lineages

/-!
# Stores that resolve alike

Classes are resolved from few questions. Where two stores give the same answers to these, everything
that is read off them is the same; the only thing that shows more of a graph is an ontology fragment.

* `Taxonomy.AgreesOn` : a store answers these questions as a taxonomy does, about all terms that
  readings come to;
* `AgreesOn.ancestors_eq`, `AgreesOn.descendants_eq`, `AgreesOn.lineages_eq` : so walks are the same;
* `AgreesOn.classRecord_eq` : so are records;
* `AgreesOn.vocabulary_eq`, `AgreesOn.identity_eq`, `AgreesOn.definition_eq`,
  `AgreesOn.classIndex_eq` : and the bodies of documents.
-/

namespace TaxonomyPress.Taxonomy

/-- The store `after` answers as `T` does, about the values of `known` terms and about the subjects
that have `described` terms as values. Readings stay among these terms, and what is below `listed`
terms is listed. Of `rdfs:subClassOf` only the values that are real count, and of other facts about a
term only those that restrict it. -/
structure AgreesOn (T : Taxonomy) (after : Store) (known described listed : Term → Prop) : Prop where
  known_of_described : ∀ {s}, described s → known s
  described_of_listed : ∀ {s}, listed s → described s
  known_of_mem_objects : ∀ {s predicate o}, o ∈ T.store.objects s predicate → known o
  known_of_mem_subjects : ∀ {predicate o s}, s ∈ T.store.subjects predicate o → known s
  described_of_mem_realParents : ∀ {n p}, p ∈ T.realParents n → described p.term
  listed_of_mem_below : ∀ {n m}, listed n.term → m ∈ T.below n → listed m.term
  objects_eq : ∀ {s predicate}, known s → predicate ≠ Rdfs.subClassOf →
    after.objects s predicate = T.store.objects s predicate
  subjects_eq : ∀ {o}, described o → ∀ predicate,
    after.subjects predicate o = T.store.subjects predicate o
  hasSubject_eq : ∀ {s}, known s → after.hasSubject s = T.store.hasSubject s
  realTargets_eq : ∀ {s}, known s → ∀ predicate,
    (T.withStore after).realTargets s predicate = T.realTargets s predicate
  restrictionEntries_eq : ∀ {s}, known s →
    (after.outgoing s).filterMap restrictionEntry = (T.store.outgoing s).filterMap restrictionEntry

namespace AgreesOn

variable {T : Taxonomy} {after : Store} {known described listed : Term → Prop}
  {settings : Settings} (h : T.AgreesOn after known described listed)

include h

/-! ## Terms that readings come to -/

theorem known_of_mem_realParents {n p : Node} (hp : p ∈ T.realParents n) : known p.term :=
  h.known_of_described (h.described_of_mem_realParents hp)

theorem described_of_mem_ancestors {n m : Node} (hn : described n.term) (hm : m ∈ T.ancestors n) :
    described m.term :=
  Steps.closed_of_mem_reached (P := fun m : Node => described m.term)
    (fun _ _ _ hp => h.described_of_mem_realParents hp) hn hm

theorem listed_of_mem_descendants {n m : Node} (hn : listed n.term) (hm : m ∈ T.descendants n) :
    listed m.term :=
  Steps.closed_of_mem_reached (P := fun m : Node => listed m.term)
    (fun _ hn _ hm => h.listed_of_mem_below hn hm) hn hm

theorem known_of_mem_declaredProperties {n p : Node} (hp : p ∈ T.declaredProperties n) :
    known p.term := by
  obtain ⟨s, hs, rfl⟩ := List.mem_map.1 (mem_of_mem_sortNodes hp)
  exact h.known_of_mem_subjects hs

theorem known_of_mem_allProperties {n p : Node} (hp : p ∈ T.allProperties n) : known p.term := by
  rcases List.mem_append.1 (mem_of_mem_sortNodes hp) with hp | hp
  · obtain ⟨d, -, hp⟩ := List.mem_flatMap.1 hp
    exact h.known_of_mem_declaredProperties hp
  · exact h.known_of_mem_declaredProperties hp

/-! ## Walks upwards -/

theorem realParents_eq {n : Node} (hn : known n.term) :
    (T.withStore after).realParents n = T.realParents n :=
  congrArg (List.map _) (h.realTargets_eq hn _)

theorem agreesOn_parentSteps :
    T.parentSteps.AgreesOn (T.withStore after).parentSteps fun n => known n.term where
  key_eq := rfl
  next_eq _ hn := h.realParents_eq hn
  closed _ _ _ hp := h.known_of_mem_realParents hp

theorem ancestors_eq {n : Node} (hn : known n.term) :
    (T.withStore after).ancestors n = T.ancestors n :=
  h.agreesOn_parentSteps.reached_eq hn

theorem firstParents_eq {n : Node} (hn : known n.term) :
    (T.withStore after).firstParents n = T.firstParents n :=
  h.agreesOn_parentSteps.firstChain_eq hn

theorem canonicalId_eq {n : Node} (hn : known n.term) :
    (T.withStore after).canonicalId n = T.canonicalId n := by
  unfold canonicalId canonicalTitles
  rw [h.firstParents_eq hn]
  rfl

theorem titlePaths_eq {onPath : List NodeKey} {n : Node} (hn : known n.term) :
    (T.withStore after).titlePaths onPath n = T.titlePaths onPath n := by
  induction onPath, n using climb_induction (T := T) with
  | h onPath n ih =>
    have hfresh : (T.withStore after).freshParents onPath n = T.freshParents onPath n :=
      congrArg (List.filter _) (h.realParents_eq hn)
    have habove : (T.freshParents onPath n).mapM
        (fun p => (T.withStore after).titlePaths (p.key :: onPath) p) =
        (T.freshParents onPath n).mapM fun p => T.titlePaths (p.key :: onPath) p := by
      refine mapM_congr fun p hp => ?_
      obtain ⟨hparent, hkey⟩ := mem_freshParents.1 hp
      exact ih p hparent hkey (h.known_of_mem_realParents (mem_realParents_iff.2 hparent))
    rw [Taxonomy.titlePaths_eq, Taxonomy.titlePaths_eq, hfresh, habove]
    rfl

theorem lineages_eq {n : Node} (hn : known n.term) :
    (T.withStore after).lineages n = T.lineages n := by
  unfold lineages
  rw [h.titlePaths_eq hn]

/-! ## Walks downwards -/

theorem below_eq {n : Node} (hn : described n.term) :
    (T.withStore after).below n = T.below n := by
  unfold below
  rw [h.subjects_eq hn, h.subjects_eq hn]

theorem agreesOn_memberSteps :
    T.memberSteps.AgreesOn (T.withStore after).memberSteps fun n => listed n.term where
  key_eq := rfl
  next_eq _ hn := h.below_eq (h.described_of_listed hn)
  closed _ hn _ hm := h.listed_of_mem_below hn hm

theorem descendants_eq {n : Node} (hn : listed n.term) :
    (T.withStore after).descendants n = T.descendants n :=
  h.agreesOn_memberSteps.reached_eq hn

theorem children_eq {n : Node} (hn : described n.term) :
    (T.withStore after).children n = T.children n := by
  unfold children
  rw [h.subjects_eq hn]

theorem declaredProperties_eq {n : Node} (hn : described n.term) :
    (T.withStore after).declaredProperties n = T.declaredProperties n := by
  unfold declaredProperties
  rw [h.subjects_eq hn]
  rfl

theorem allProperties_eq {n : Node} (hn : described n.term) :
    (T.withStore after).allProperties n = T.allProperties n := by
  have hinherited : (T.ancestors n).flatMap (T.withStore after).declaredProperties =
      (T.ancestors n).flatMap T.declaredProperties :=
    List.flatMap_congr fun m hm => h.declaredProperties_eq (h.described_of_mem_ancestors hn hm)
  unfold allProperties
  rw [h.ancestors_eq (h.known_of_described hn), hinherited, h.declaredProperties_eq hn]
  rfl

/-! ## Annotations -/

theorem classScopes_eq {n : Node} (hn : known n.term) :
    (T.withStore after).classScopes n = T.classScopes n := by
  unfold classScopes
  rw [h.ancestors_eq hn]

theorem annotationOf_eq {value : Term} (hvalue : known value) :
    (T.withStore after).annotationOf value = T.annotationOf value :=
  annotationOf_congr (h.objects_eq hvalue (by decide)) (h.objects_eq hvalue (by decide))

theorem applicable_eq {p : Node} (hp : known p.term) {predicate : String}
    (hpredicate : predicate ≠ Rdfs.subClassOf) (scopes : List String) :
    (T.withStore after).applicable p predicate scopes = T.applicable p predicate scopes := by
  have hannotations : (T.withStore after).annotations p predicate = T.annotations p predicate := by
    unfold annotations
    rw [h.objects_eq hp hpredicate]
    exact List.filterMap_congr fun value hvalue =>
      h.annotationOf_eq (h.known_of_mem_objects hvalue)
  unfold applicable
  rw [hannotations]

theorem propertyLabels_eq {p : Node} (hp : known p.term) (scopes : List String) :
    (T.withStore after).propertyLabels p scopes = T.propertyLabels p scopes := by
  unfold propertyLabels resolveTexts
  rw [h.applicable_eq hp (by decide)]

theorem propertyComments_eq {p : Node} (hp : known p.term) (scopes : List String) :
    (T.withStore after).propertyComments p scopes = T.propertyComments p scopes := by
  unfold propertyComments resolveTexts
  rw [h.applicable_eq hp (by decide)]

theorem contextName_eq {p : Node} (hp : known p.term) (scopes : List String) :
    (T.withStore after).contextName p scopes = T.contextName p scopes := by
  unfold contextName resolveText
  rw [h.applicable_eq hp (by decide)]
  rfl

/-! ## Records -/

theorem ranges_eq {p : Node} (hp : known p.term) :
    (T.withStore after).ranges p = T.ranges p := by
  unfold ranges
  rw [h.objects_eq hp (by decide)]

theorem restrictions_eq {p : Node} (hp : known p.term) :
    (T.withStore after).restrictions p = T.restrictions p := by
  have hsources : (T.withStore after).restrictionSources p = T.restrictionSources p := by
    unfold restrictionSources
    rw [h.objects_eq hp (by decide)]
  have hknown : ∀ s ∈ T.restrictionSources p, known s := by
    intro s hs
    rcases List.mem_cons.1 hs with rfl | hs
    · exact hp
    · exact h.known_of_mem_objects (List.mem_filter.1 hs).1
  unfold restrictions
  rw [hsources, List.filterMap_flatMap, List.filterMap_flatMap,
    List.flatMap_congr fun s hs => h.restrictionEntries_eq (hknown s hs)]

theorem propertyRecord_eq {p : Node} (hp : known p.term) (scopes : List String) :
    (T.withStore after).propertyRecord p scopes = T.propertyRecord p scopes := by
  unfold propertyRecord
  rw [h.canonicalId_eq hp, h.contextName_eq hp, h.ranges_eq hp, h.restrictions_eq hp,
    h.propertyLabels_eq hp, h.propertyComments_eq hp]
  rfl

theorem classRecord_eq {n : Node} (hn : listed n.term) :
    (T.withStore after).classRecord n = T.classRecord n := by
  have hdescribed : described n.term := h.described_of_listed hn
  have hn' : known n.term := h.known_of_described hdescribed
  have hrecords : ∀ p ∈ T.allProperties n,
      (T.withStore after).propertyRecord p (T.classScopes n) =
        T.propertyRecord p (T.classScopes n) := fun p hp =>
    h.propertyRecord_eq (h.known_of_mem_allProperties hp) _
  unfold classRecord
  rw [h.declaredProperties_eq hdescribed, h.classScopes_eq hn', h.allProperties_eq hdescribed,
    h.canonicalId_eq hn', h.realParents_eq hn', h.descendants_eq hn]
  refine congrArg (· >>= _) (mapM_congr fun p hp => ?_)
  rw [hrecords p hp]

/-! ## Entries -/

theorem textsByLanguage_eq {s : Term} (hs : known s) {predicate : String}
    (hpredicate : predicate ≠ Rdfs.subClassOf) :
    (T.withStore after).textsByLanguage s predicate = T.textsByLanguage s predicate := by
  unfold textsByLanguage
  rw [h.objects_eq hs hpredicate]

theorem firstText_eq {s : Term} (hs : known s) {predicate : String}
    (hpredicate : predicate ≠ Rdfs.subClassOf) :
    (T.withStore after).firstText s predicate = T.firstText s predicate := by
  unfold firstText
  rw [h.objects_eq hs hpredicate]

theorem versionInfo_eq {n : Node} (hn : known n.term) :
    (T.withStore after).versionInfo n = T.versionInfo n :=
  h.firstText_eq hn (by decide)

theorem termStatus_eq {n : Node} (hn : known n.term) :
    (T.withStore after).termStatus n = T.termStatus n :=
  h.firstText_eq hn (by decide)

theorem typeIds_eq {n : Node} (hn : known n.term) :
    (T.withStore after).typeIds n = T.typeIds n := by
  unfold typeIds
  rw [h.objects_eq hn (by decide)]

theorem classEntry_eq {n : Node} (hn : known n.term) :
    (T.withStore after).classEntry n = T.classEntry n := by
  unfold classEntry labels comments
  rw [h.typeIds_eq hn, h.realParents_eq hn, h.textsByLanguage_eq hn (by decide),
    h.textsByLanguage_eq hn (by decide), h.versionInfo_eq hn, h.termStatus_eq hn]
  rfl

theorem attributeEntry_eq {p : Node} (hp : known p.term) (scopes : List String) :
    (T.withStore after).attributeEntry scopes p = T.attributeEntry scopes p := by
  unfold attributeEntry domains
  rw [h.propertyRecord_eq hp, h.typeIds_eq hp, h.realTargets_eq hp, h.versionInfo_eq hp,
    h.termStatus_eq hp]
  rfl

theorem hasObjectRange_eq {p : Node} (hp : known p.term) :
    (T.withStore after).hasObjectRange p = T.hasObjectRange p := by
  have hranges : ∀ r ∈ T.ranges p, after.hasSubject r.term = T.store.hasSubject r.term := by
    intro r hr
    obtain ⟨s, hs, rfl⟩ := List.mem_map.1 hr
    exact h.hasSubject_eq (h.known_of_mem_objects (List.mem_filter.1 hs).1)
  unfold hasObjectRange
  rw [h.ranges_eq hp, Bool.eq_iff_iff, List.any_eq_true, List.any_eq_true]
  exact exists_congr fun r => and_congr_right fun hr => by rw [hranges r hr]

theorem attributeMapping_eq {p : Node} (hp : known p.term) (flat : Bool)
    (scopes : List String) : (T.withStore after).attributeMapping flat scopes p =
      T.attributeMapping flat scopes p := by
  unfold attributeMapping
  rw [h.contextName_eq hp, h.canonicalId_eq hp, h.hasObjectRange_eq hp]

theorem isNamedIn_eq {n : Node} (hn : known n.term) (names : List String) :
    (T.withStore after).isNamedIn names n = T.isNamedIn names n := by
  unfold isNamedIn
  rw [h.canonicalId_eq hn]
  rfl

/-! ## Documents -/

theorem vocabulary_eq {n : Node} (hn : listed n.term) :
    (T.withStore after).vocabulary settings n = T.vocabulary settings n := by
  have hattributes : (T.allProperties n).mapM
      ((T.withStore after).attributeEntry (T.classScopes n)) =
      (T.allProperties n).mapM (T.attributeEntry (T.classScopes n)) :=
    mapM_congr fun p hp => h.attributeEntry_eq (h.known_of_mem_allProperties hp) _
  have hclasses : (n :: T.descendants n).map (T.withStore after).classEntry =
      (n :: T.descendants n).map T.classEntry := by
    refine List.map_congr_left fun m hm =>
      h.classEntry_eq (h.known_of_described (h.described_of_listed ?_))
    rcases List.mem_cons.1 hm with rfl | hm
    · exact hn
    · exact h.listed_of_mem_descendants hn hm
  have hdescribed : described n.term := h.described_of_listed hn
  have hn' : known n.term := h.known_of_described hdescribed
  unfold Taxonomy.vocabulary
  rw [h.canonicalId_eq hn', h.allProperties_eq hdescribed, h.classScopes_eq hn', hattributes,
    h.descendants_eq hn, hclasses]

theorem identity_eq {n : Node} (hn : described n.term) :
    (T.withStore after).identity settings n = T.identity settings n := by
  have hn' : known n.term := h.known_of_described hn
  have hflat : settings.flattens (T.withStore after) n = settings.flattens T n :=
    h.isNamedIn_eq hn' _
  have hattributes : (T.allProperties n).mapM
      ((T.withStore after).attributeMapping (settings.flattens T n) (T.classScopes n)) =
      (T.allProperties n).mapM (T.attributeMapping (settings.flattens T n) (T.classScopes n)) :=
    mapM_congr fun p hp => h.attributeMapping_eq (h.known_of_mem_allProperties hp) _ _
  unfold Taxonomy.identity
  rw [h.canonicalId_eq hn', h.allProperties_eq hn, h.classScopes_eq hn', hflat, hattributes]

theorem definition_eq {n : Node} (hn : listed n.term) :
    (T.withStore after).definition settings n = T.definition settings n := by
  unfold Taxonomy.definition
  rw [h.classRecord_eq hn, h.classEntry_eq (h.known_of_described (h.described_of_listed hn))]

theorem classIndex_eq {n : Node} (hn : described n.term) (l : Lineage) :
    (T.withStore after).classIndex settings n l = T.classIndex settings n l := by
  unfold classIndex
  rw [h.children_eq hn]
  rfl

theorem classBodies_eq {n : Node} (hn : listed n.term) :
    (T.withStore after).classBodies settings n = T.classBodies settings n := by
  have hdescribed : described n.term := h.described_of_listed hn
  have hexcluded : settings.excludes (T.withStore after) n = settings.excludes T n :=
    h.isNamedIn_eq (h.known_of_described hdescribed) _
  unfold classBodies
  rw [h.vocabulary_eq hn, hexcluded, h.identity_eq hdescribed, h.definition_eq hn]

theorem lineageDocuments_eq {n : Node} (hn : described n.term) (bodies : ClassBodies) :
    (T.withStore after).lineageDocuments settings n bodies =
      T.lineageDocuments settings n bodies := by
  funext l
  unfold lineageDocuments hasChildren
  rw [h.children_eq hn, h.classIndex_eq hn]

end AgreesOn

end TaxonomyPress.Taxonomy
