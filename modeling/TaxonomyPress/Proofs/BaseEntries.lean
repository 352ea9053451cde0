import TaxonomyPress.Proofs.Failures
import TaxonomyPress.Proofs.FirstParents
import TaxonomyPress.Proofs.IdentityContexts

/-!
# The base entries of identity contexts

Attributes are put into the context that all identities start from. Nothing keeps the names of the
base entries from being attribute keys.

* `baseKeys` : the names of the base entries, each of which has one (`exists_entry_of_mem_baseKeys`);
* `Identity.Keeps` : a context still has the base entry of a key;
* `AttributeMapping.toJson_eq_iff_of_base` : an attribute can only be equal to a base entry that is
  a string, and only a flat one;
* `Taxonomy.base_entry_kept_iff` : which base entries a context keeps, and what replaces the others;
* `Taxonomy.size_replaces_data` : an attribute named `data` replaces the entry that attributes are
  nested under.
-/

namespace TaxonomyPress

/-! ## Base entries -/

/-- The keys of the entries that every identity starts from. -/
def baseKeys : List String := ["@version", "@vocab", "pot", "dli", "data"]

section Base

variable {settings : Settings} {table : NamespaceTable} {vocab key : String} {entry : Json}

theorem exists_entry_of_mem_baseKeys (settings : Settings) (table : NamespaceTable) (vocab : String)
    (h : key ∈ baseKeys) : ∃ entry, (identityContext settings table vocab).get? key = some entry := by
  simp only [baseKeys, List.mem_cons, List.not_mem_nil, or_false] at h
  rcases h with rfl | rfl | rfl | rfl | rfl <;>
    simp [identityContext, Dictionary.ofList, Dictionary.get?_insertAll]

theorem textAt_nest_versionValue (settings : Settings) :
    textAt "@nest" (versionValue settings) = none := by
  unfold versionValue
  split <;> rfl

theorem textAt_nest_prefixDeclaration (table : NamespaceTable) (name standard : String) :
    textAt "@nest" (prefixDeclaration table name standard) = none := by
  rw [textAt, prefixDeclaration, Json.get?_ofEntries_of_forall_ne]
  · rfl
  · simp

/-- No base entry is nested. -/
theorem textAt_nest_of_base (h : (identityContext settings table vocab).get? key = some entry) :
    textAt "@nest" entry = none := by
  obtain ⟨before, after, hentries, -⟩ := Dictionary.get?_ofList_eq_some_iff.1 h
  have hmem : (key, entry) ∈ before ++ (key, entry) :: after :=
    List.mem_append_right before List.mem_cons_self
  rw [← hentries] at hmem
  simp only [List.mem_cons, Prod.mk.injEq, List.not_mem_nil, or_false] at hmem
  rcases hmem with ⟨-, rfl⟩ | ⟨-, rfl⟩ | ⟨-, rfl⟩ | ⟨-, rfl⟩ | ⟨-, rfl⟩
  · exact textAt_nest_versionValue settings
  · rfl
  · exact textAt_nest_prefixDeclaration table _ _
  · exact textAt_nest_prefixDeclaration table _ _
  · rfl

/-- A nested attribute differs from all base entries, and a flat one from all that are no strings. -/
theorem AttributeMapping.toJson_eq_iff_of_base {mapping : AttributeMapping}
    (h : (identityContext settings table vocab).get? key = some entry) :
    mapping.toJson = entry ↔ mapping.isFlat = true ∧ entry = .string mapping.id := by
  have hnest := textAt_nest_of_base h
  cases mapping with
  | flat id => simp [toJson, isFlat, AttributeMapping.id, eq_comm]
  | nested id =>
    refine iff_of_false ?_ (by simp [isFlat])
    rintro rfl
    cases hnest
  | nestedReference id =>
    refine iff_of_false ?_ (by simp [isFlat])
    rintro rfl
    cases hnest

end Base

/-- The context of the identity has at `key` what the identity starts from. -/
def Identity.Keeps (identity : Identity) (key : String) : Prop :=
  identity.context.get? key = identity.base.get? key

namespace Taxonomy

variable {T : Taxonomy} {settings : Settings} {n : Node} {key : String} {entry : Json}
  {identity : Identity}

/-! ## Kept and replaced -/

theorem keeps_of_unnamed (h : T.identity settings n = .ok identity)
    (hnone : ∀ p ∈ T.allProperties n, ¬ T.Names n key p) : identity.Keeps key :=
  get?_context_of_unnamed h hnone

/-- Where a property has the key of a base entry, the entry is kept just when the last such property
happens to be mapped to it. -/
theorem keeps_iff_of_lastNamed {p : Node} {vocab : String} (h : T.identity settings n = .ok identity)
    (hbase : identity.base = identityContext settings T.namespaces vocab)
    (hentry : identity.base.get? key = some entry) (hp : T.LastNamed n key p) :
    identity.Keeps key ↔
      settings.flattens T n = true ∧ ∃ id, T.canonicalId p = .ok id ∧ entry = .string id := by
  obtain ⟨mapping, hmapping, hcontext⟩ := exists_mapping_of_lastNamed h hp
  obtain ⟨-, hid, hflat⟩ := attributeMapping_eq_ok hmapping
  rw [Identity.Keeps, hcontext, hentry, Option.some_inj,
    AttributeMapping.toJson_eq_iff_of_base (hbase ▸ hentry), hflat, hid]
  simp

/-- **Which base entries an identity keeps.** It starts from an entry for each of five keys. This stays
in the context just when no property of the class has the key, or the class is flat and the canonical
identifier of the last property with the key is the very text of the entry. Otherwise it is replaced by
what that property is mapped to. -/
theorem base_entry_kept_iff (T : Taxonomy) (settings : Settings) (n : Node) {identity : Identity}
    (h : T.identity settings n = .ok identity) :
    (∃ id, T.canonicalId n = .ok id ∧ identity.base = identityContext settings T.namespaces
      (documentUrl settings.baseUrl .vocabulary (canonicalLineage id) ++ "#")) ∧
    identity.toJson.get? "@context" = some (.ofDictionary identity.context) ∧
    ∀ key ∈ baseKeys, ∃ entry, identity.base.get? key = some entry ∧
      (identity.context.get? key = some entry ↔
        (∀ p ∈ T.allProperties n, ¬ T.Names n key p) ∨
          settings.flattens T n = true ∧ ∃ p id, T.LastNamed n key p ∧ T.canonicalId p = .ok id ∧
            entry = .string id) ∧
      ∀ p, T.LastNamed n key p → ∃ mapping,
        T.attributeMapping (settings.flattens T n) (T.classScopes n) p = .ok (key, mapping) ∧
          identity.context.get? key = some mapping.toJson := by
  obtain ⟨⟨id, hid, hbase⟩, -⟩ := identity_eq_ok h
  refine ⟨⟨id, hid, hbase⟩, rfl, fun key hkey => ?_⟩
  obtain ⟨entry, hentry⟩ := exists_entry_of_mem_baseKeys settings T.namespaces
    (documentUrl settings.baseUrl .vocabulary (canonicalLineage id) ++ "#") hkey
  rw [← hbase] at hentry
  refine ⟨entry, hentry, ?_, fun p hp => exists_mapping_of_lastNamed h hp⟩
  have hkeeps : identity.Keeps key ↔ identity.context.get? key = some entry := by
    rw [Identity.Keeps, hentry]
  rw [← hkeeps]
  constructor
  · intro hkept
    by_cases hnamed : ∃ p ∈ T.allProperties n, T.Names n key p
    · obtain ⟨p, hp, hname⟩ := hnamed
      obtain ⟨last, hlast⟩ := exists_lastNamed hp hname
      obtain ⟨hflat, id, hlastid, htext⟩ := (keeps_iff_of_lastNamed h hbase hentry hlast).1 hkept
      exact Or.inr ⟨hflat, last, id, hlast, hlastid, htext⟩
    · exact Or.inl fun p hp hname => hnamed ⟨p, hp, hname⟩
  · rintro (hnone | ⟨hflat, last, id, hlast, hlastid, htext⟩)
    · exact keeps_of_unnamed h hnone
    · exact (keeps_iff_of_lastNamed h hbase hentry hlast).2 ⟨hflat, id, hlastid, htext⟩

/-! ## An attribute named like a base entry -/

/-- A house whose size has the context name `data`. -/
def sizeNamedData : Taxonomy where
  store := .ofList
    [⟨.iri "http://x/o#House", Rdf.type, .iri Rdfs.classType⟩,
     ⟨.iri "http://x/o#size", Rdfs.domain, .iri "http://x/o#House"⟩,
     ⟨.iri "http://x/o#size", Pot.contextName, .plain "data"⟩]
  namespaces := .empty

theorem allProperties_sizeNamedData :
    sizeNamedData.allProperties (.ofClass (.iri "http://x/o#House")) =
      [.ofProperty (.iri "http://x/o#size")] :=
  allProperties_of_subjects_eq (by decide) rfl

theorem attributeMapping_sizeNamedData : sizeNamedData.attributeMapping false
    (sizeNamedData.classScopes (.ofClass (.iri "http://x/o#House")))
    (.ofProperty (.iri "http://x/o#size")) = .ok ("data", .nested "o:size") := by
  have hname : sizeNamedData.contextName (.ofProperty (.iri "http://x/o#size"))
      (sizeNamedData.classScopes (.ofClass (.iri "http://x/o#House"))) = .ok "data" := by
    rw [classScopes, ancestors_of_root (by decide)]
    decide
  have hid : sizeNamedData.canonicalId (.ofProperty (.iri "http://x/o#size")) = .ok "o:size" :=
    canonicalId_eq_ok_iff.2 ⟨"o", "size", ["size"], by decide,
      canonicalTitles_of_root (by decide) (by decide), by decide⟩
  rw [attributeMapping, hname, hid]
  decide

theorem identity_sizeNamedData : ∃ identity,
    sizeNamedData.identity {} (.ofClass (.iri "http://x/o#House")) = .ok identity ∧
      identity.base = identityContext {} .empty
        "https://standards.oftrust.net/v1/Vocabulary/House#" ∧
      identity.attributes = [("data", .nested "o:size")] := by
  have hid : sizeNamedData.canonicalId (.ofClass (.iri "http://x/o#House")) = .ok "o:House" :=
    canonicalId_eq_ok_iff.2 ⟨"o", "House", ["House"], by decide +kernel,
      canonicalTitles_of_root (by decide) (by decide +kernel), by decide⟩
  have hflat : Settings.flattens {} sizeNamedData (.ofClass (.iri "http://x/o#House")) = false :=
    isNamedIn_nil _ _
  have hurl : documentUrl ({} : Settings).baseUrl .vocabulary (canonicalLineage "o:House") ++ "#" =
      "https://standards.oftrust.net/v1/Vocabulary/House#" := by decide
  refine ⟨⟨identityContext {} .empty _, _⟩, ?_, rfl, rfl⟩
  rw [Taxonomy.identity, hid, allProperties_sizeNamedData, hflat, List.mapM_cons,
    attributeMapping_sizeNamedData, List.mapM_nil, ← hurl]
  rfl

/-- **The entry for `data` is lost** to the attribute of that name, which refers to itself as what it is
nested under. -/
theorem size_replaces_data : ∃ identity,
    sizeNamedData.identity {} (.ofClass (.iri "http://x/o#House")) = .ok identity ∧
      identity.base = identityContext {} .empty
        "https://standards.oftrust.net/v1/Vocabulary/House#" ∧
      identity.base.get? "data" = some (.string "dli:data") ∧
      identity.context.get? "data" = some (AttributeMapping.nested "o:size").toJson ∧
      identity.context.get? "data" ≠ some (.string "dli:data") := by
  obtain ⟨identity, hidentity, hbase, hattributes⟩ := identity_sizeNamedData
  have hdata : identity.context.get? "data" = some (AttributeMapping.nested "o:size").toJson := by
    rw [Identity.context, hattributes]
    simp [Dictionary.get?_insertAll]
  refine ⟨identity, hidentity, hbase, ?_, hdata, ?_⟩
  · rw [hbase]
    rfl
  · rw [hdata]
    rintro ⟨⟩

/-- The prefix `pot` keeps its declaration beside an attribute `data`, and `data` does not. -/
theorem sizeNamedData_keeps_pot : ∃ identity,
    sizeNamedData.identity {} (.ofClass (.iri "http://x/o#House")) = .ok identity ∧
      identity.context.get? "pot" = some (prefixDeclaration .empty "pot" Pot.namespaceIri) ∧
      identity.context.get? "data" ≠ identity.base.get? "data" := by
  let House : Node := .ofClass (.iri "http://x/o#House")
  let size : Node := .ofProperty (.iri "http://x/o#size")
  obtain ⟨identity, hidentity, hbase, -⟩ := identity_sizeNamedData
  have hnames : ∀ key, sizeNamedData.Names House key size ↔ "data" = key := fun key => by
    rw [Names, (attributeMapping_eq_ok attributeMapping_sizeNamedData).1, Except.ok.injEq]
  have hname : sizeNamedData.Names House "data" size := (hnames "data").2 rfl
  have hlast : sizeNamedData.LastNamed House "data" size :=
    ⟨[], [], allProperties_sizeNamedData, hname, nofun⟩
  obtain ⟨-, -, hentries⟩ := base_entry_kept_iff sizeNamedData {} House hidentity
  obtain ⟨pot, hpot, hpotkept, -⟩ := hentries "pot" (by decide)
  obtain ⟨data, hdata, hdatakept, -⟩ := hentries "data" (by decide)
  refine ⟨identity, hidentity, ?_, ?_⟩
  · rw [hbase] at hpot
    rw [hpotkept.2 (Or.inl ?_)]
    · exact hpot.symm
    · rw [allProperties_sizeNamedData]
      rintro p hp hname
      obtain rfl := List.mem_singleton.1 hp
      exact absurd ((hnames "pot").1 hname) (by decide)
  · rw [hdata, Ne, hdatakept]
    rintro (hnone | ⟨hflat, -⟩)
    · exact hnone size hlast.mem hname
    · rw [show Settings.flattens {} sizeNamedData House = false from isNamedIn_nil _ _] at hflat
      cases hflat

end Taxonomy

end TaxonomyPress
