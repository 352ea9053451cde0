import TaxonomyPress.Proofs.Failures
import TaxonomyPress.Proofs.IdentityContexts

/-!
# What the documents of a class say about its properties

* `Taxonomy.SameAttribute` : a vocabulary and a definition say the same about a property;
* `Taxonomy.sameAttribute` : so they do where both start from one record;
* `Taxonomy.IsDeclaredOn`, `Taxonomy.declaredFirst` : the order in which definitions list properties;
* `Taxonomy.MapsAttributes` : the keys of an identity lead to the properties that a definition names;
* `Taxonomy.documents_agree_on_attributes` : the three documents of a class agree.
-/

namespace TaxonomyPress

/-! ## Optional members -/

/-- An optional member is no member at another key. -/
theorem get?_optional_of_ne {c : Prop} [Decidable c] {key name : String} (value : Json)
    (h : name ≠ key) : (Json.ofEntries (if c then [] else [(name, value)])).get? key = none := by
  refine Json.get?_ofEntries_of_forall_ne fun entry hentry => ?_
  split at hentry
  · cases hentry
  · rwa [List.mem_singleton.1 hentry]

theorem get?_textMember_of_ne {key name : String} (text : Option String) (h : name ≠ key) :
    (Json.ofEntries (textMember name text)).get? key = none := by
  refine Json.get?_ofEntries_of_forall_ne fun entry hentry => ?_
  cases text with
  | none => cases hentry
  | some text => rwa [List.mem_singleton.1 hentry]

theorem textAt_id_attributeEntry (entry : AttributeEntry) :
    textAt "@id" entry.toJson = some entry.id := by
  unfold textAt AttributeEntry.toJson languageMember listMember textsMember
  simp [Json.get?_ofEntries_append, Json.get?_ofEntries_cons, get?_optional_of_ne,
    get?_textMember_of_ne, Json.asString?]

namespace Taxonomy

variable {T : Taxonomy} {settings : Settings} {n p : Node}

/-! ## One property -/

/-- The members that vocabularies and definitions share. -/
def sharedMembers : List String := ["rdfs:label", "rdfs:comment", "range", "pot:restriction"]

/-- A vocabulary of `n` and a definition of `n` say the same about the property `p`. -/
structure SameAttribute (T : Taxonomy) (n p : Node) (entry item : Json) : Prop where
  entry_id : textAt "@id" entry = some (T.compactId p)
  item_id : ∃ id, T.canonicalId p = .ok id ∧ textAt "@id" item = some id
  item_name : ∃ key, T.Names n key p ∧ textAt "pot:contextName" item = some key
  members_eq : ∀ key ∈ sharedMembers, entry.get? key = item.get? key

/-- The entry of `p` in a vocabulary. -/
def entryOf (T : Taxonomy) (p : Node) (record : PropertyRecord) : AttributeEntry :=
  { id := record.compactId
    type := (T.typeIds p).headD "rdf:Property"
    labels := record.labels
    comments := record.comments
    domains := (T.domains p).map T.compactId
    ranges := record.ranges
    restrictions := record.restrictions
    versionInfo := T.versionInfo p
    termStatus := T.termStatus p }

theorem attributeEntry_eq {scopes : List String} {record : PropertyRecord}
    (h : T.propertyRecord p scopes = .ok record) :
    T.attributeEntry scopes p = .ok (T.entryOf p record) := by
  unfold attributeEntry
  rw [h]
  rfl

theorem names_of_propertyRecord {scopes : List String} {record : PropertyRecord}
    (h : T.propertyRecord p scopes = .ok record) :
    T.canonicalId p = .ok record.canonicalId ∧ T.compactId p = record.compactId ∧
      T.contextName p scopes = .ok record.contextName := by
  unfold propertyRecord at h
  obtain ⟨id, hid, h⟩ := bind_eq_ok_iff.1 h
  obtain ⟨title, -, h⟩ := bind_eq_ok_iff.1 h
  obtain ⟨name, hname, h⟩ := bind_eq_ok_iff.1 h
  obtain rfl : _ = record := Except.ok.inj h
  exact ⟨hid, rfl, hname⟩

theorem textAt_contextName (record : PropertyRecord) :
    textAt "pot:contextName" (definitionAttribute record) = some record.contextName := by
  unfold textAt definitionAttribute languageMember listMember textsMember
  simp [Json.get?_ofEntries_append, Json.get?_ofEntries_cons, get?_optional_of_ne, Json.asString?]

theorem textAt_id (record : PropertyRecord) :
    textAt "@id" (definitionAttribute record) = some record.canonicalId := by
  unfold textAt definitionAttribute languageMember listMember textsMember
  simp [Json.get?_ofEntries_append, Json.get?_ofEntries_cons, get?_optional_of_ne, Json.asString?]

theorem sameAttribute {record : PropertyRecord}
    (h : T.propertyRecord p (T.classScopes n) = .ok record) :
    T.SameAttribute n p (T.entryOf p record).toJson (definitionAttribute record) := by
  obtain ⟨hid, hcompact, hname⟩ := names_of_propertyRecord h
  refine ⟨?_, ⟨_, hid, textAt_id record⟩, ⟨_, hname, textAt_contextName record⟩, fun key hkey => ?_⟩
  · rw [hcompact]
    exact textAt_id_attributeEntry _
  · unfold AttributeEntry.toJson definitionAttribute languageMember listMember textsMember
    simp only [sharedMembers, List.mem_cons, List.not_mem_nil, or_false] at hkey
    rcases hkey with rfl | rfl | rfl | rfl <;>
    simp [Json.get?_ofEntries_append, Json.get?_ofEntries_cons, get?_optional_of_ne,
      get?_textMember_of_ne, entryOf]

/-! ## The properties of a class -/

/-- Some fact declares the property on the class. Nodes with one key are the same. -/
def IsDeclaredOn (T : Taxonomy) (n p : Node) : Prop :=
  ∃ s, ⟨s, Rdfs.domain, n.term⟩ ∈ T.store.triples ∧ (Node.ofProperty s).key = p.key

theorem isDeclaredOn_iff :
    T.IsDeclaredOn n p ↔ p.key ∈ (T.declaredProperties n).map Node.key := by
  rw [List.mem_map]
  constructor
  · rintro ⟨s, hs, hkey⟩
    have hmem : .ofProperty s ∈ (T.store.subjects Rdfs.domain n.term).map Node.ofProperty :=
      mem_map_domain_subjects.2 ⟨rfl, hs⟩
    obtain ⟨q, hq, hqkey⟩ : ∃ q ∈ distinctBy Node.key ((T.store.subjects Rdfs.domain n.term).map
      Node.ofProperty), q.key = (Node.ofProperty s).key := exists_mem_distinctBy hmem
    exact ⟨q, mem_sortNodes_iff.2 hq, hqkey.trans hkey⟩
  · rintro ⟨q, hq, hkey⟩
    obtain ⟨hkind, hs⟩ := mem_map_domain_subjects.1 (mem_of_mem_sortNodes hq)
    obtain ⟨kind, s⟩ := q
    obtain rfl : kind = .propertyNode := hkind
    exact ⟨s, hs, hkey⟩

instance : Decidable (T.IsDeclaredOn n p) := decidable_of_iff _ isDeclaredOn_iff.symm

/-- The properties of a class in their order, but those declared on it before the inherited ones. -/
def declaredFirst (T : Taxonomy) (n : Node) : List Node :=
  (T.allProperties n).filter (T.IsDeclaredOn n ·) ++ (T.allProperties n).filter (¬ T.IsDeclaredOn n ·)

theorem perm_declaredFirst : (T.declaredFirst n).Perm (T.allProperties n) := by
  have h := List.filter_append_perm (fun p => decide (T.IsDeclaredOn n p)) (T.allProperties n)
  simpa [declaredFirst] using h

/-- A record has the records of the properties, those declared on the class apart from the others. -/
theorem exists_partition {record : ClassRecord} (h : T.classRecord n = .ok record) :
    ∃ records : Node → PropertyRecord,
      (∀ p ∈ T.allProperties n, T.propertyRecord p (T.classScopes n) = .ok (records p)) ∧
        record.declaredProperties = ((T.allProperties n).filter (T.IsDeclaredOn n ·)).map records ∧
        record.inheritedProperties =
          ((T.allProperties n).filter (¬ T.IsDeclaredOn n ·)).map records := by
  unfold classRecord at h
  obtain ⟨pairs, hpairs, h⟩ := bind_eq_ok_iff.1 h
  obtain ⟨_, -, h⟩ := bind_eq_ok_iff.1 h
  obtain ⟨_, -, h⟩ := bind_eq_ok_iff.1 h
  obtain rfl : _ = record := Except.ok.inj h
  have : Nonempty (Bool × PropertyRecord) := ⟨false, "", "", "", "", [], [], [], []⟩
  obtain ⟨g, hg, rfl⟩ := exists_map_of_mapM_eq_ok hpairs
  have hpair : ∀ p ∈ T.allProperties n,
      T.propertyRecord p (T.classScopes n) = .ok (g p).2 ∧
        (g p).1 = decide (T.IsDeclaredOn n p) := by
    intro p hp
    obtain ⟨record, hrecord, h⟩ := bind_eq_ok_iff.1 (hg p hp)
    rw [← pure_eq_ok_iff.1 h]
    exact ⟨hrecord, decide_eq_decide.2 isDeclaredOn_iff.symm⟩
  refine ⟨fun p => (g p).2, fun p hp => (hpair p hp).1, ?_, ?_⟩
  all_goals
    dsimp only
    rw [List.filter_map, List.map_map]
    refine congrArg (List.map _) (List.filter_congr fun p hp => ?_)
  · exact (hpair p hp).2
  · rw [Function.comp_apply, (hpair p hp).2, decide_not]

theorem exists_records {record : ClassRecord} (h : T.classRecord n = .ok record) :
    ∃ records : Node → PropertyRecord,
      (∀ p ∈ T.allProperties n, T.propertyRecord p (T.classScopes n) = .ok (records p)) ∧
        record.declaredProperties ++ record.inheritedProperties =
          (T.declaredFirst n).map records := by
  obtain ⟨records, hrecords, hdeclared, hinherited⟩ := exists_partition h
  refine ⟨records, hrecords, ?_⟩
  rw [hdeclared, hinherited, declaredFirst, List.map_append]

/-! ## The documents -/

theorem attributes_of_vocabulary {vocabulary : Vocabulary} {records : Node → PropertyRecord}
    (h : T.vocabulary settings n = .ok vocabulary)
    (hrecords : ∀ p ∈ T.allProperties n,
      T.propertyRecord p (T.classScopes n) = .ok (records p)) :
    vocabulary.attributes = (T.allProperties n).map fun p => T.entryOf p (records p) := by
  unfold Taxonomy.vocabulary at h
  obtain ⟨id, -, h⟩ := bind_eq_ok_iff.1 h
  obtain ⟨attributes, hattributes, h⟩ := bind_eq_ok_iff.1 h
  obtain rfl : _ = vocabulary := Except.ok.inj h
  have hentries : (T.allProperties n).mapM (T.attributeEntry (T.classScopes n)) =
      .ok ((T.allProperties n).map fun p => T.entryOf p (records p)) := by
    rw [mapM_eq_ok_iff, List.forall₂_map_right_iff, List.forall₂_same]
    exact fun p hp => attributeEntry_eq (hrecords p hp)
  exact Except.ok.inj (hattributes.symm.trans hentries)

theorem attributes_of_definition {definition : Definition}
    (h : T.definition settings n = .ok definition) :
    ∃ records : Node → PropertyRecord,
      (∀ p ∈ T.allProperties n, T.propertyRecord p (T.classScopes n) = .ok (records p)) ∧
        definition.attributes = (T.declaredFirst n).map records := by
  unfold Taxonomy.definition at h
  obtain ⟨record, hrecord, h⟩ := bind_eq_ok_iff.1 h
  obtain rfl : _ = definition := Except.ok.inj h
  exact exists_records hrecord

theorem supportedAttribute_of_vocabulary (vocabulary : Vocabulary) :
    vocabulary.toJson.get? "pot:supportedAttribute" =
      some (.array (vocabulary.attributes.map AttributeEntry.toJson)) := by
  simp [Vocabulary.toJson, Json.get?_ofEntries]

theorem supportedAttribute_of_definition (definition : Definition) :
    definition.toJson.get? "pot:supportedAttribute" =
      some (.array (definition.attributes.map definitionAttribute)) := by
  unfold Definition.toJson
  rw [Json.get?_ofEntries_append]
  simp [Json.get?_ofEntries]

/-- The keys of the context are the names of the attributes and those that all identities have. A name
leads to the identifier of the last property of that name, as `item` tells it, straight or nested as the
settings ask for. -/
structure MapsAttributes (T : Taxonomy) (settings : Settings) (n : Node) (item : Node → Json)
    (context : Dictionary Json) : Prop where
  named : ∀ p ∈ T.allProperties n, ∀ key, textAt "pot:contextName" (item p) = some key →
    ∃ before last after, T.allProperties n = before ++ last :: after ∧
      textAt "pot:contextName" (item last) = some key ∧
      (∀ q ∈ after, textAt "pot:contextName" (item q) ≠ some key) ∧
      ∃ entry id, context.get? key = some entry ∧ textAt "@id" (item last) = some id ∧
        entryId (settings.flattens T n) entry = some id
  unnamed : ∀ key, (∀ p ∈ T.allProperties n, textAt "pot:contextName" (item p) ≠ some key) →
    ∃ id, T.canonicalId n = .ok id ∧
      context.get? key = (identityContext settings T.namespaces
        (documentUrl settings.baseUrl .vocabulary (canonicalLineage id) ++ "#")).get? key

theorem mapsAttributes {identity : Identity} {records : Node → PropertyRecord}
    (h : T.identity settings n = .ok identity)
    (hrecords : ∀ p ∈ T.allProperties n,
      T.propertyRecord p (T.classScopes n) = .ok (records p)) :
    T.MapsAttributes settings n (fun p => definitionAttribute (records p)) identity.context := by
  have hnames : ∀ p ∈ T.allProperties n, ∀ key,
      textAt "pot:contextName" (definitionAttribute (records p)) = some key ↔ T.Names n key p := by
    intro p hp key
    rw [textAt_contextName, Names, (names_of_propertyRecord (hrecords p hp)).2.2, Except.ok.injEq,
      Option.some.injEq]
  refine ⟨fun p hp key hkey => ?_, fun key hnone => ?_⟩
  · obtain ⟨last, hlast⟩ := exists_lastNamed hp ((hnames p hp key).1 hkey)
    obtain ⟨entry, id, hentry, hid, hform⟩ := get?_context_of_lastNamed h hlast
    have hrecord := names_of_propertyRecord (hrecords last hlast.mem)
    obtain rfl : id = (records last).canonicalId := Except.ok.inj (hid.symm.trans hrecord.1)
    have hitem := hlast.mem
    obtain ⟨before, after, hsplit, hname, hafter⟩ := hlast
    refine ⟨before, last, after, hsplit, (hnames last hitem key).2 hname, fun q hq hqkey => ?_,
      entry, _, hentry, textAt_id (records last), hform⟩
    have hqmem : q ∈ T.allProperties n :=
      hsplit ▸ List.mem_append_right before (List.mem_cons_of_mem last hq)
    exact hafter q hq ((hnames q hqmem key).1 hqkey)
  · obtain ⟨⟨id, hid, hbase⟩, -⟩ := identity_eq_ok h
    refine ⟨id, hid, ?_⟩
    rw [get?_context_of_unnamed h fun p hp hname => hnone p hp ((hnames p hp key).2 hname), hbase]

/-! ## The main result -/

/-- **The documents of a class agree on its attributes.** For each property, its vocabularies and its
definitions have an item with the same labels, comments, ranges and restrictions. Vocabularies list all
properties in order, definitions those declared on the class first. The keys of its identities are the
names that definitions give, and lead to the last property of that name in vocabularies, and the keys of
all identities. -/
theorem documents_agree_on_attributes (T : Taxonomy) (settings : Settings) (n : Node)
    {documents : List Document} (h : T.classDocuments settings n = .ok documents)
    (hincluded : settings.excludes T n = false) :
    ((T.allProperties n).map Node.key).Nodup ∧
      (T.declaredFirst n).Perm (T.allProperties n) ∧
      (∀ kind ∈ [DocumentKind.vocabulary, .definition, .identity], ∃ d ∈ documents, d.kind = kind) ∧
      ∃ entry item : Node → Json,
        (∀ p ∈ T.allProperties n, T.SameAttribute n p (entry p) (item p)) ∧
          ∀ d ∈ documents,
            (d.kind = .vocabulary → d.body.get? "pot:supportedAttribute" =
              some (.array ((T.allProperties n).map entry))) ∧
            (d.kind = .definition → d.body.get? "pot:supportedAttribute" =
              some (.array ((T.declaredFirst n).map item))) ∧
            (d.kind = .identity → ∃ context, d.body = .ofEntries [("@context", .ofDictionary context)] ∧
              T.MapsAttributes settings n item context) := by
  obtain ⟨lineages, bodies, id, hbuilt, rfl⟩ := classDocuments_eq_ok_iff.1 h
  have hmem : ∀ l ∈ lineages, T.lineageDocuments settings n bodies l ⊆
      lineages.flatMap (T.lineageDocuments settings n bodies) ++ [T.fragmentDocument settings n id] :=
    fun l hl d hd => List.mem_append_left _ (List.mem_flatMap.2 ⟨l, hl, hd⟩)
  obtain ⟨vocabulary, identity, definition, rfl, hvocabulary, hidentity, hdefinition⟩ :=
    exists_bodies_of_included hbuilt.bodies_eq hincluded
  obtain ⟨records, hrecords, hlisted⟩ := attributes_of_definition hdefinition
  refine ⟨nodup_map_key_sortNodes _, perm_declaredFirst, fun kind hkind => ?_,
    fun p => (T.entryOf p (records p)).toJson, fun p => definitionAttribute (records p),
    fun p hp => sameAttribute (hrecords p hp), fun d hd => ?_⟩
  · obtain ⟨l, hl⟩ := List.exists_mem_of_ne_nil lineages (lineages_ne_nil hbuilt.lineages_eq)
    simp only [List.mem_cons, List.not_mem_nil, or_false] at hkind
    rcases hkind with rfl | rfl | rfl
    · exact ⟨_, hmem l hl (mem_lineageDocuments_iff.2 (Or.inl rfl)), rfl⟩
    · exact ⟨_, hmem l hl (mem_lineageDocuments_iff.2 (Or.inr (Or.inr (Or.inl ⟨_, rfl, rfl⟩)))), rfl⟩
    · exact ⟨_, hmem l hl (mem_lineageDocuments_iff.2 (Or.inr (Or.inl ⟨_, rfl, rfl⟩))), rfl⟩
  · rcases List.mem_append.1 hd with hd | hd
    · obtain ⟨l, -, hd⟩ := List.mem_flatMap.1 hd
      rcases mem_lineageDocuments_iff.1 hd with rfl | ⟨_, hi, rfl⟩ | ⟨_, hdef, rfl⟩ | ⟨-, rfl⟩
      · refine ⟨fun _ => ?_, nofun, nofun⟩
        rw [supportedAttribute_of_vocabulary, attributes_of_vocabulary hvocabulary hrecords,
          List.map_map]
        rfl
      · obtain rfl := Option.some.inj hi
        exact ⟨nofun, nofun, fun _ => ⟨_, rfl, mapsAttributes hidentity hrecords⟩⟩
      · obtain rfl := Option.some.inj hdef
        refine ⟨nofun, fun _ => ?_, nofun⟩
        rw [supportedAttribute_of_definition, hlisted, List.map_map]
        rfl
      · exact ⟨nofun, nofun, nofun⟩
    · obtain rfl := List.mem_singleton.1 hd
      exact ⟨nofun, nofun, nofun⟩

/-- Buildings and houses have names of their own. -/
def sharedName : Taxonomy where
  store := .ofList
    [⟨.iri "http://x/o#Building", Rdf.type, .iri Rdfs.classType⟩,
     ⟨.iri "http://x/o#House", Rdf.type, .iri Rdfs.classType⟩,
     ⟨.iri "http://x/o#House", Rdfs.subClassOf, .iri "http://x/o#Building"⟩,
     ⟨.iri "http://x/o#buildingName", Rdfs.domain, .iri "http://x/o#Building"⟩,
     ⟨.iri "http://x/o#buildingName", Pot.contextName, .plain "name"⟩,
     ⟨.iri "http://x/o#houseName", Rdfs.domain, .iri "http://x/o#House"⟩,
     ⟨.iri "http://x/o#houseName", Pot.contextName, .plain "name"⟩]
  namespaces := .empty

theorem ancestors_sharedName :
    sharedName.ancestors (.ofClass (.iri "http://x/o#House")) =
      [.ofClass (.iri "http://x/o#Building")] := by
  let T : Taxonomy := sharedName
  let Building : Node := .ofClass (.iri "http://x/o#Building")
  let House : Node := .ofClass (.iri "http://x/o#House")
  have hHouse : T.parentSteps.next House = [Building] := by decide
  have hBuilding : T.parentSteps.next Building = [] := by decide
  have hkey : T.parentSteps.key Building ∉ [T.parentSteps.key House] := by decide
  rw [ancestors, Steps.reached, hHouse, Steps.breadthFirst, dif_neg hkey, hBuilding,
    List.nil_append, Steps.breadthFirst]

theorem allProperties_sharedName :
    sharedName.allProperties (.ofClass (.iri "http://x/o#House")) =
      [.ofProperty (.iri "http://x/o#buildingName"), .ofProperty (.iri "http://x/o#houseName")] := by
  rw [allProperties, ancestors_sharedName, List.flatMap_singleton,
    declaredProperties_of_subjects_eq (p := .iri "http://x/o#buildingName") (by decide),
    declaredProperties_of_subjects_eq (p := .iri "http://x/o#houseName") (by decide)]
  exact sortNodes_eq_self (by decide) (by decide)

/-- The later one of two properties has the name that both want. -/
theorem sharedName_leads_to_last :
    ∃ documents, sharedName.classDocuments {} (.ofClass (.iri "http://x/o#House")) = .ok documents ∧
      Settings.excludes {} sharedName (.ofClass (.iri "http://x/o#House")) = false ∧
      ∃ d ∈ documents, ∃ context, d.body = .ofEntries [("@context", .ofDictionary context)] ∧
        (context.get? "name").bind (textAt "@id") = some "o:houseName" := by
  let House : Node := .ofClass (.iri "http://x/o#House")
  let houseName : Node := .ofProperty (.iri "http://x/o#houseName")
  have hsubjects : ∀ t ∈ sharedName.store.triples,
      (sharedName.title (.ofClass t.subject)).toOption.isSome := by decide
  have htitled : ∀ p ∈ sharedName.allProperties House, sharedName.Titled p := by
    intro p hp
    refine titled_of_subjects hsubjects ?_
    rw [allProperties_sharedName] at hp
    revert p
    decide
  have hHouse : sharedName.Titled House := titled_of_subjects hsubjects (by decide)
  have hincluded : Settings.excludes {} sharedName House = false := isNamedIn_nil _ _
  obtain ⟨documents, hdocuments⟩ := hHouse.exists_classDocuments htitled {}
  obtain ⟨-, -, hkinds, entry, item, hsame, hbodies⟩ :=
    documents_agree_on_attributes sharedName {} House hdocuments hincluded
  obtain ⟨d, hd, hkind⟩ := hkinds .identity (by decide)
  obtain ⟨context, hbody, hmaps⟩ := (hbodies d hd).2.2 hkind
  refine ⟨documents, hdocuments, hincluded, d, hd, context, hbody, ?_⟩
  have hcontextName : ∀ p ∈ sharedName.allProperties House,
      sharedName.contextName p (sharedName.classScopes House) = .ok "name" := by
    rw [classScopes, ancestors_sharedName, allProperties_sharedName]
    decide
  have hname : ∀ p ∈ sharedName.allProperties House,
      textAt "pot:contextName" (item p) = some "name" := by
    intro p hp
    obtain ⟨key, hkey, htext⟩ := (hsame p hp).item_name
    obtain rfl : "name" = key := Except.ok.inj ((hcontextName p hp).symm.trans hkey)
    exact htext
  have hlast : houseName ∈ sharedName.allProperties House := by
    rw [allProperties_sharedName]
    decide
  obtain ⟨before, last, after, hsplit, -, hafter, value, id, hvalue, hid, hform⟩ :=
    hmaps.named houseName hlast "name" (hname houseName hlast)
  have hnone : after = [] := by
    refine List.eq_nil_iff_forall_not_mem.2 fun q hq => hafter q hq (hname q ?_)
    exact hsplit ▸ List.mem_append_right before (List.mem_cons_of_mem last hq)
  rw [hnone, allProperties_sharedName] at hsplit
  obtain rfl : houseName = last := by simpa using congrArg List.getLast? hsplit
  obtain ⟨id', hid', htext⟩ := (hsame houseName hlast).item_id
  obtain rfl : id = id' := Option.some.inj (hid.symm.trans htext)
  have hcanonical : sharedName.canonicalId houseName = .ok "o:houseName" :=
    canonicalId_eq_ok_iff.2 ⟨"o", "houseName", ["houseName"], by decide,
      canonicalTitles_of_root (by decide) (by decide), by decide⟩
  obtain rfl : "o:houseName" = id := Except.ok.inj (hcanonical.symm.trans hid')
  rw [show Settings.flattens {} sharedName House = false from isNamedIn_nil _ _] at hform
  rw [hvalue]
  exact hform

end Taxonomy

end TaxonomyPress
