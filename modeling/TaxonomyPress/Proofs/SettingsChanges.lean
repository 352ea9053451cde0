import TaxonomyPress.Proofs.Failures
import TaxonomyPress.Proofs.IdentityContexts

/-!
# Changes of settings

* `OwnedDocument`, `Taxonomy.ownedDocuments` : the documents of a build with the classes that they
  describe;
* `Taxonomy.alike_classDocuments_excludingNone` : excluding a class takes its identities and
  definitions away, and leaves the rest in place;
* `Taxonomy.SameMapping` : identities with the same keys, in which attribute keys stand for the same
  properties;
* `Taxonomy.alike_classDocuments_flattening` : writing attributes flat changes identities only, and
  these to such with the same mapping;
* `Taxonomy.settings_change_only` : what this means for builds.
-/

namespace TaxonomyPress

/-- The settings without excluded classes. -/
abbrev Settings.excludingNone (settings : Settings) : Settings :=
  { settings with excludedClasses := [] }

/-- The settings with other classes to write flat. -/
abbrev Settings.flattening (settings : Settings) (names : List String) : Settings :=
  { settings with flatDefinitionClasses := names }

/-- A document with the class that it describes. The root index describes none. -/
structure OwnedDocument where
  owner : Option Node
  document : Document

/-- What an excluded class goes without. -/
def Document.isExcludable (d : Document) : Bool := d.kind = .identity || d.kind = .definition

namespace Taxonomy

variable {T : Taxonomy} {settings : Settings} {n : Node}

/-! ## Documents and their classes -/

/-- The documents of a build, each with its class. -/
def ownedDocuments (T : Taxonomy) (settings : Settings) : List OwnedDocument :=
  (T.classes.flatMap fun n => (T.builtDocuments settings n).map (OwnedDocument.mk (some n))) ++
    [⟨none, T.rootDocument settings⟩]

theorem documents_build_eq_map : (T.build settings).documents =
    (T.ownedDocuments settings).map OwnedDocument.document := by
  rw [documents_build, ownedDocuments, List.map_append, List.map_flatMap]
  simp only [List.map_map]
  simp [Function.comp_def]

/-- The document is the identity or the definition of a class that the settings exclude. -/
def isExcluded (T : Taxonomy) (settings : Settings) (d : OwnedDocument) : Bool :=
  d.owner.any (settings.excludes T) && d.document.isExcludable

theorem failures_build_congr {settings' : Settings} {R : Node → List Document → List Document → Prop}
    (h : ∀ n, Alike (R n) (T.classDocuments settings n) (T.classDocuments settings' n)) :
    (T.build settings).failures = (T.build settings').failures := by
  rw [failures_build, failures_build]
  refine List.filterMap_congr fun n _ => ?_
  have halike := h n
  generalize T.classDocuments settings n = x at halike
  generalize T.classDocuments settings' n = x' at halike
  cases halike <;> rfl

/-- The documents of classes that are built alike are related, as no documents are where both fail. -/
theorem builtDocuments_related {settings' : Settings} {R : List Document → List Document → Prop}
    (h : Alike R (T.classDocuments settings n) (T.classDocuments settings' n)) (hnil : R [] []) :
    R (T.builtDocuments settings n) (T.builtDocuments settings' n) := by
  unfold builtDocuments
  generalize T.classDocuments settings n = x at h ⊢
  generalize T.classDocuments settings' n = x' at h ⊢
  cases h with
  | error cause => exact hnil
  | ok h => exact h

/-! ## Exclusion -/

/-- An excluded class fails just when it does otherwise, for its vocabulary fails with the others. -/
theorem alike_classBodies_excludingNone (T : Taxonomy) (settings : Settings) (n : Node) :
    Alike (fun bodies all => bodies = if settings.excludes T n then
        { all with identity := none, definition := none } else all)
      (T.classBodies settings n) (T.classBodies settings.excludingNone n) := by
  have hall : settings.excludingNone.excludes T n = false := isNamedIn_nil T n
  unfold classBodies
  rw [hall]
  refine .bind_left (T.vocabulary settings n) fun vocabulary hvocabulary => ?_
  cases hexcluded : settings.excludes T n with
  | false =>
    refine .bind_left (T.identity settings n) fun identity _ => ?_
    exact .bind_left (T.definition settings n) fun definition _ => .ok rfl
  | true =>
    have hrecord : ¬ Fails (T.classRecord n) := fun h =>
      not_fails_ok vocabulary (hvocabulary ▸ fails_vocabulary_iff.2 h)
    have hidentity : ¬ Fails (T.identity settings n) := fun h => hrecord (fails_identity_iff.1 h)
    have hdefinition : ¬ Fails (T.definition settings n) := fun h =>
      hrecord (fails_definition_iff.1 h)
    obtain ⟨identity, hidentity⟩ := not_fails_iff.1 hidentity
    obtain ⟨definition, hdefinition⟩ := not_fails_iff.1 hdefinition
    have hidentity' : T.identity settings.excludingNone n = .ok identity := hidentity
    have hdefinition' : T.definition settings.excludingNone n = .ok definition := hdefinition
    rw [hidentity', hdefinition']
    exact .ok rfl

theorem lineageDocuments_without (all : ClassBodies) (l : Lineage) :
    T.lineageDocuments settings n { all with identity := none, definition := none } l =
      (T.lineageDocuments settings n all l).filter fun d => !d.isExcludable := by
  obtain ⟨vocabulary, identity, definition⟩ := all
  unfold lineageDocuments
  cases identity <;> cases definition <;> cases T.hasChildren n <;> rfl

/-- An excluded class goes without its identities and definitions, and has all other documents. -/
theorem alike_classDocuments_excludingNone (T : Taxonomy) (settings : Settings) (n : Node) :
    Alike (fun documents all => documents =
        all.filter fun d => !(settings.excludes T n && d.isExcludable))
      (T.classDocuments settings n) (T.classDocuments settings.excludingNone n) := by
  have hsame : T.lineageDocuments settings.excludingNone n = T.lineageDocuments settings n := rfl
  unfold classDocuments
  rw [hsame]
  refine .bind_left (T.lineages n) fun lineages _ => ?_
  refine (alike_classBodies_excludingNone T settings n).bind fun bodies all _ _ hbodies => ?_
  refine .bind_left (T.canonicalId n) fun id _ => .ok ?_
  rw [hbodies]
  cases settings.excludes T n with
  | false => exact (List.filter_eq_self.2 fun _ _ => rfl).symm
  | true =>
    have hlineage : T.lineageDocuments settings n { all with identity := none, definition := none } =
        fun l => (T.lineageDocuments settings n all l).filter fun d => !d.isExcludable :=
      funext (lineageDocuments_without all)
    simp only [if_true, hlineage, Bool.true_and, List.filter_append, List.filter_flatMap]
    rfl

/-! ## Flat attributes -/

/-- The bodies are identities of `n` with the same keys. The keys of attributes stand for the same
properties, in the form that the settings of each ask for, and the other keys have the same entries. -/
def SameMapping (T : Taxonomy) (settings settings' : Settings) (n : Node) (body body' : Json) : Prop :=
  ∃ context context' : Dictionary Json,
    body = .ofEntries [("@context", .ofDictionary context)] ∧
      body' = .ofEntries [("@context", .ofDictionary context')] ∧
      context.keys = context'.keys ∧
      (∀ key, (∃ p ∈ T.allProperties n, T.Names n key p) →
        ∃ entry entry' id, context.get? key = some entry ∧ context'.get? key = some entry' ∧
          entryId (settings.flattens T n) entry = some id ∧
          entryId (settings'.flattens T n) entry' = some id) ∧
      ∀ key, (∀ p ∈ T.allProperties n, ¬ T.Names n key p) → context.get? key = context'.get? key

theorem alike_identity_flattening (T : Taxonomy) (settings : Settings) (names : List String)
    (n : Node) :
    Alike (fun identity identity' => identity.base = identity'.base ∧
        identity.context.keys = identity'.context.keys)
      (T.identity settings n) (T.identity (settings.flattening names) n) := by
  unfold Taxonomy.identity
  refine .bind_left (T.canonicalId n) fun id _ => ?_
  have hattributes : ∀ flat flat', Alike (List.Forall₂ fun a a' => a.1 = a'.1)
      ((T.allProperties n).mapM (T.attributeMapping flat (T.classScopes n)))
      ((T.allProperties n).mapM (T.attributeMapping flat' (T.classScopes n))) := by
    refine fun flat flat' => .mapM fun p _ => ?_
    unfold attributeMapping
    refine .bind_left (T.contextName p (T.classScopes n)) fun name _ => ?_
    exact .bind_left (T.canonicalId p) fun id _ => .ok rfl
  refine (hattributes _ _).bind fun attributes attributes' _ _ hkeys => .ok ⟨rfl, ?_⟩
  refine Dictionary.keys_insertAll_congr rfl ?_
  rw [List.map_map, List.map_map, ← List.forall₂_eq_eq_eq, List.forall₂_map_left_iff,
    List.forall₂_map_right_iff]
  exact hkeys

theorem sameMapping_toJson {settings' : Settings} {identity identity' : Identity}
    (h : T.identity settings n = .ok identity) (h' : T.identity settings' n = .ok identity')
    (hbase : identity.base = identity'.base)
    (hkeys : identity.context.keys = identity'.context.keys) :
    T.SameMapping settings settings' n identity.toJson identity'.toJson := by
  refine ⟨identity.context, identity'.context, rfl, rfl, hkeys, fun key hkey => ?_,
    fun key hnone => ?_⟩
  · obtain ⟨p, hp, hname⟩ := hkey
    obtain ⟨q, hlast⟩ := exists_lastNamed hp hname
    obtain ⟨entry, id, hentry, hid, hform⟩ := get?_context_of_lastNamed h hlast
    obtain ⟨entry', id', hentry', hid', hform'⟩ := get?_context_of_lastNamed h' hlast
    obtain rfl : id = id' := Except.ok.inj (hid.symm.trans hid')
    exact ⟨entry, entry', id, hentry, hentry', hform, hform'⟩
  · rw [get?_context_of_unnamed h hnone, get?_context_of_unnamed h' hnone, hbase]

/-- The bodies of `n` differ in how the identity writes its attributes. -/
structure BodiesAlike (T : Taxonomy) (settings settings' : Settings) (n : Node)
    (bodies bodies' : ClassBodies) : Prop where
  vocabulary_eq : bodies.vocabulary = bodies'.vocabulary
  definition_eq : bodies.definition = bodies'.definition
  identity : Option.Rel
    (fun identity identity' =>
      T.SameMapping settings settings' n identity.toJson identity'.toJson)
    bodies.identity bodies'.identity

theorem alike_classBodies_flattening (T : Taxonomy) (settings : Settings) (names : List String)
    (n : Node) :
    Alike (T.BodiesAlike settings (settings.flattening names) n)
      (T.classBodies settings n) (T.classBodies (settings.flattening names) n) := by
  have hexcludes : (settings.flattening names).excludes T n = settings.excludes T n := rfl
  unfold classBodies
  rw [hexcludes]
  refine .bind_left (T.vocabulary settings n) fun vocabulary _ => ?_
  cases settings.excludes T n with
  | true => exact .ok ⟨rfl, rfl, .none⟩
  | false =>
    refine (alike_identity_flattening T settings names n).bind
      fun identity identity' h h' hidentity => ?_
    refine .bind_left (T.definition settings n) fun definition _ => .ok ⟨rfl, rfl, .some ?_⟩
    exact sameMapping_toJson h h' hidentity.1 hidentity.2

/-- The documents have the same owner, kind and path, and but for identities the same body. Identities
are such of their owner with the same mapping. -/
structure DocumentsAlike (T : Taxonomy) (settings settings' : Settings) (d d' : OwnedDocument) :
    Prop where
  owner_eq : d.owner = d'.owner
  kind_eq : d.document.kind = d'.document.kind
  path_eq : d.document.path = d'.document.path
  body_eq : d.document.kind ≠ .identity → d.document.body = d'.document.body
  mapping : d.document.kind = .identity →
    ∃ n ∈ d.owner, T.SameMapping settings settings' n d.document.body d'.document.body

theorem DocumentsAlike.refl {settings' : Settings} {owner : Option Node} {d : Document}
    (h : d.kind ≠ .identity) : T.DocumentsAlike settings settings' ⟨owner, d⟩ ⟨owner, d⟩ :=
  ⟨rfl, rfl, rfl, fun _ => rfl, fun hkind => absurd hkind h⟩

theorem lineageDocuments_alike {names : List String} {bodies bodies' : ClassBodies}
    (h : T.BodiesAlike settings (settings.flattening names) n bodies bodies') (l : Lineage) :
    List.Forall₂ (T.DocumentsAlike settings (settings.flattening names))
      ((T.lineageDocuments settings n bodies l).map (OwnedDocument.mk (some n)))
      ((T.lineageDocuments (settings.flattening names) n bodies' l).map
        (OwnedDocument.mk (some n))) := by
  obtain ⟨vocabulary, identity, definition⟩ := bodies
  obtain ⟨vocabulary', identity', definition'⟩ := bodies'
  obtain ⟨hvocabulary, hdefinition, hidentity⟩ := h
  obtain rfl : vocabulary = vocabulary' := hvocabulary
  obtain rfl : definition = definition' := hdefinition
  unfold lineageDocuments
  simp only [List.map_append]
  refine List.rel_append (List.rel_append (List.rel_append ?_ ?_) ?_) ?_
  · exact .cons (.refl nofun) .nil
  · cases hidentity with
    | none => exact .nil
    | some hmapping =>
      exact .cons ⟨rfl, rfl, rfl, fun h => absurd rfl h, fun _ => ⟨n, rfl, hmapping⟩⟩ .nil
  · cases definition with
    | none => exact .nil
    | some definition => exact .cons (.refl nofun) .nil
  · cases T.hasChildren n with
    | false => exact .nil
    | true => exact .cons (.refl nofun) .nil

/-- Writing the attributes of a class flat or nested changes its identities, and nothing else. -/
theorem alike_classDocuments_flattening (T : Taxonomy) (settings : Settings) (names : List String)
    (n : Node) :
    Alike (fun documents documents' =>
        List.Forall₂ (T.DocumentsAlike settings (settings.flattening names))
          (documents.map (OwnedDocument.mk (some n))) (documents'.map (OwnedDocument.mk (some n))))
      (T.classDocuments settings n) (T.classDocuments (settings.flattening names) n) := by
  unfold classDocuments
  refine .bind_left (T.lineages n) fun lineages _ => ?_
  refine (alike_classBodies_flattening T settings names n).bind fun bodies bodies' _ _ hbodies => ?_
  refine .bind_left (T.canonicalId n) fun id _ => .ok ?_
  simp only [List.map_append, List.map_flatMap]
  refine List.rel_append (forall₂_flatMap fun l _ => lineageDocuments_alike hbodies l) ?_
  exact .cons (.refl nofun) .nil

/-! ## The main result -/

/-- **Settings change only what they should.** Excluding classes takes their identities and definitions
out of a build, and leaves all other documents in their order and as they are. Writing other classes flat
leaves kinds, paths and bodies of all documents as they are, but for the bodies of identities, and these
keep their keys and what their attributes stand for. Neither changes what fails. -/
theorem settings_change_only (T : Taxonomy) (settings : Settings) (names : List String) :
    (∀ settings, (T.build settings).documents =
        (T.ownedDocuments settings).map OwnedDocument.document) ∧
      (T.ownedDocuments settings =
          (T.ownedDocuments settings.excludingNone).filter (!T.isExcluded settings ·) ∧
        (T.build settings).failures = (T.build settings.excludingNone).failures) ∧
      (List.Forall₂ (T.DocumentsAlike settings (settings.flattening names))
          (T.ownedDocuments settings) (T.ownedDocuments (settings.flattening names)) ∧
        (T.build settings).failures = (T.build (settings.flattening names)).failures) := by
  refine ⟨fun _ => documents_build_eq_map, ⟨?_, ?_⟩, ?_, ?_⟩
  · have hroot : T.rootDocument settings.excludingNone = T.rootDocument settings := by
      unfold rootDocument
      rw [rootEntries_settings settings.excludingNone settings]
      rfl
    have hbuilt : ∀ n, T.builtDocuments settings n =
        (T.builtDocuments settings.excludingNone n).filter
          fun d => !(settings.excludes T n && d.isExcludable) := fun n =>
      builtDocuments_related (alike_classDocuments_excludingNone T settings n) rfl
    unfold ownedDocuments
    rw [List.filter_append, List.filter_flatMap, hroot]
    congr 1
    refine List.flatMap_congr fun n _ => ?_
    rw [hbuilt, List.filter_map]
    rfl
  · exact failures_build_congr fun n => alike_classDocuments_excludingNone T settings n
  · have hroot : T.rootDocument (settings.flattening names) = T.rootDocument settings := by
      unfold rootDocument
      rw [rootEntries_settings (settings.flattening names) settings]
      rfl
    unfold ownedDocuments
    rw [hroot]
    refine List.rel_append (forall₂_flatMap fun n _ => ?_) (.cons (.refl nofun) .nil)
    exact builtDocuments_related (alike_classDocuments_flattening T settings names n) .nil
  · exact failures_build_congr fun n => alike_classDocuments_flattening T settings names n

end Taxonomy

end TaxonomyPress
