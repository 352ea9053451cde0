import TaxonomyPress.Proofs.CompactNames

/-!
# Reading the identifiers of a vocabulary by its own context

A vocabulary abbreviates identifiers with all bound prefixes, and declares a fixed list of them.

* `prefixIri`, `declaredIri` : what an entry, and a context, declare for a prefix;
* `expandIn` : the IRI that a compact identifier stands for by a context;
* `declaredIri_vocabularyContext_iff` : the prefixes that a vocabulary declares as they are bound;
* `expandIn_eq_iff` : when an abbreviated IRI is read back;
* `attributeIds` : the identifiers that the body of a vocabulary lists properties by;
* `Taxonomy.vocabulary_ids_readable_iff` : which identifiers can be read by the vocabulary alone;
* `Taxonomy.bound_prefix_undeclared` : a prefix from the settings is used and not declared.
-/

namespace TaxonomyPress

open NamespaceTable

/-! ## Prefixes in a context -/

/-- The delimiters that a text ends in if it can stand for a prefix without saying so. -/
def isDelimiter (c : Char) : Bool := c ∈ [':', '/', '?', '#', '[', ']', '@']

/-- The IRI of an entry that can be used as a prefix: a text that ends in a delimiter, or an object that
is marked as a prefix. -/
def prefixIri : Json → Option String
  | .string iri => if iri.toList.getLast?.any isDelimiter then some iri else none
  | entry =>
    match entry.get? "@prefix" with
    | some (.boolean true) => textAt "@id" entry
    | _ => none

/-- The IRI that a context declares for the prefix `name`. Names with `@` in front are keywords. -/
def declaredIri (context : Json) (name : String) : Option String :=
  if Text.startsWith "@" name then none else (context.get? name).bind prefixIri

/-- The IRI that `id` stands for by a context: cut at the first colon, unless `//` follows, and with the
declared IRI in place of the prefix. -/
def expandIn (context : Json) (id : String) : String :=
  match Text.cutAtFirst ':' id with
  | none => id
  | some (name, rest) =>
    if Text.startsWith "//" rest then id
    else ((declaredIri context name).map (· ++ rest)).getD id

section

variable {context : Json} {name rest iri namespaceIri : String}

theorem expandIn_eq (hcolon : ':' ∉ name.toList) : expandIn context (name ++ ":" ++ rest) =
    if Text.startsWith "//" rest then name ++ ":" ++ rest
    else ((declaredIri context name).map (· ++ rest)).getD (name ++ ":" ++ rest) := by
  rw [expandIn, Text.cutAtFirst_append rest rfl hcolon]

/-- An abbreviated IRI is read back with the namespace that the context declares for its prefix. Where
the prefix is not read at all, it is so only if it was abbreviated to itself. -/
theorem expandIn_eq_iff (hcolon : ':' ∉ name.toList) :
    expandIn context (name ++ ":" ++ rest) = namespaceIri ++ rest ↔
      if Text.startsWith "//" rest ∨ declaredIri context name = none then namespaceIri = name ++ ":"
      else declaredIri context name = some namespaceIri := by
  rw [expandIn_eq hcolon]
  by_cases hslashes : Text.startsWith "//" rest
  · rw [if_pos hslashes, if_pos (Or.inl hslashes), String.append_left_inj, eq_comm]
  · rw [if_neg hslashes]
    cases hdeclared : declaredIri context name with
    | none =>
      rw [if_pos (Or.inr rfl), Option.map_none, Option.getD_none, String.append_left_inj, eq_comm]
    | some iri =>
      rw [if_neg (by simp [hslashes]), Option.map_some, Option.getD_some, String.append_left_inj,
        Option.some_inj]

end

/-! ## The context of a vocabulary -/

/-- The prefixes that every vocabulary declares. -/
def declaredPrefixes : List String := ["rdf", "rdfs", "owl", "vs", "xsd", "dli", "pot"]

section

variable {settings : Settings} {table : NamespaceTable} {url name iri : String}

theorem prefixIri_prefixDeclaration (h : table.iriFor name = some iri) (standard : String) :
    prefixIri (prefixDeclaration table name standard) = some iri := by
  unfold prefixDeclaration
  rw [h]
  rfl

theorem prefixIri_hash (url : String) : prefixIri (.string (url ++ "#")) = some (url ++ "#") := by
  have hlast : (url ++ "#").toList.getLast? = some '#' := by
    rw [String.toList_append]
    exact List.getLast?_concat
  rw [prefixIri, hlast]
  rfl

theorem declaredIri_of_mem (hname : name ∈ declaredPrefixes) (h : table.iriFor name = some iri) :
    declaredIri (vocabularyContext settings table (url ++ "#")) name = some iri := by
  obtain ⟨standard, hget⟩ : ∃ standard, (vocabularyContext settings table (url ++ "#")).get? name =
      some (prefixDeclaration table name standard) := by
    simp only [declaredPrefixes, List.mem_cons, List.not_mem_nil, or_false] at hname
    rcases hname with rfl | rfl | rfl | rfl | rfl | rfl | rfl <;>
      exact ⟨_, by simp [vocabularyContext, Json.get?_ofEntries]; rfl⟩
  have hkeyword : ∀ name ∈ declaredPrefixes, ¬ Text.startsWith "@" name := by decide
  rw [declaredIri, if_neg (hkeyword name hname), hget]
  exact prefixIri_prefixDeclaration h standard

theorem declaredIri_vocab (settings : Settings) (table : NamespaceTable) (url : String) :
    declaredIri (vocabularyContext settings table (url ++ "#")) "vocab" = some (url ++ "#") := by
  have hget : (vocabularyContext settings table (url ++ "#")).get? "vocab" =
      some (.string (url ++ "#")) := by
    simp [vocabularyContext, Json.get?_ofEntries]
  rw [declaredIri, if_neg (by decide), hget]
  exact prefixIri_hash url

theorem declaredIri_of_notMem (h : name ∉ declaredPrefixes) (hvocab : name ≠ "vocab") :
    declaredIri (vocabularyContext settings table (url ++ "#")) name = none := by
  by_cases hversion : name = "@version"
  · subst hversion
    rfl
  · simp only [declaredPrefixes, List.mem_cons, List.not_mem_nil, or_false, not_or] at h
    rw [declaredIri, vocabularyContext, Json.get?_ofEntries_of_forall_ne]
    · simp
    · simp only [List.mem_cons, List.not_mem_nil, or_false]
      rintro entry (rfl | rfl | rfl | rfl | rfl | rfl | rfl | rfl | rfl)
      all_goals grind

/-- A vocabulary declares a bound prefix with its namespace just when it is one of a fixed list, or
happens to stand for the terms of this vocabulary. -/
theorem declaredIri_vocabularyContext_iff (h : table.iriFor name = some iri) :
    declaredIri (vocabularyContext settings table (url ++ "#")) name = some iri ↔
      name ∈ declaredPrefixes ∨ name = "vocab" ∧ iri = url ++ "#" := by
  by_cases hname : name ∈ declaredPrefixes
  · exact iff_of_true (declaredIri_of_mem hname h) (Or.inl hname)
  by_cases hvocab : name = "vocab"
  · subst hvocab
    rw [declaredIri_vocab, Option.some_inj]
    simp [hname, eq_comm]
  · rw [declaredIri_of_notMem hname hvocab]
    simp [hname, hvocab]

end

/-! ## Identifiers in a vocabulary -/

/-- The identifiers of the properties that the body of a vocabulary lists. -/
def attributeIds (body : Json) : List String :=
  (((body.get? "pot:supportedAttribute").bind Json.asArray?).getD []).filterMap (textAt "@id")

theorem classIds_toJson (vocabulary : Vocabulary) :
    classIds vocabulary.toJson = vocabulary.classes.map (·.id) := by
  rw [classIds, supportedClasses_toJson, List.filterMap_map, ← List.filterMap_eq_map]
  exact congrArg (List.filterMap · _) (funext textAt_id_classEntry)

theorem attributeIds_toJson (vocabulary : Vocabulary) :
    attributeIds vocabulary.toJson = vocabulary.attributes.map (·.id) := by
  rw [attributeIds, Taxonomy.supportedAttribute_of_vocabulary, Option.bind_some, Json.asArray?,
    Option.getD_some, List.filterMap_map, ← List.filterMap_eq_map]
  exact congrArg (List.filterMap · _) (funext textAt_id_attributeEntry)

namespace Taxonomy

variable {T : Taxonomy} {settings : Settings} {n : Node} {vocabulary : Vocabulary} {iri : String}
  {m : Match}

theorem id_attributeEntry {scopes : List String} {p : Node} {entry : AttributeEntry}
    (h : T.attributeEntry scopes p = .ok entry) : entry.id = T.compactId p := by
  obtain ⟨record, hrecord, h⟩ := bind_eq_ok_iff.1 h
  rw [← pure_eq_ok_iff.1 h]
  exact (names_of_propertyRecord hrecord).2.1.symm

/-- What a vocabulary declares, and the identifiers of its class, of the descendants and of the
properties. -/
theorem vocabulary_eq_ok (h : T.vocabulary settings n = .ok vocabulary) :
    vocabulary.context = vocabularyContext settings T.namespaces (vocabulary.id ++ "#") ∧
      classIds vocabulary.toJson = (n :: T.descendants n).map T.compactId ∧
      attributeIds vocabulary.toJson = (T.allProperties n).map T.compactId := by
  unfold Taxonomy.vocabulary at h
  obtain ⟨id, -, h⟩ := bind_eq_ok_iff.1 h
  obtain ⟨attributes, hattributes, h⟩ := bind_eq_ok_iff.1 h
  obtain rfl : _ = vocabulary := Except.ok.inj h
  have hids : List.Forall₂ (· = ·) (attributes.map (·.id)) ((T.allProperties n).map T.compactId) := by
    rw [List.forall₂_map_left_iff, List.forall₂_map_right_iff]
    exact ((mapM_eq_ok_iff.1 hattributes).imp fun _ _ => id_attributeEntry).flip
  refine ⟨rfl, ?_, ?_⟩
  · rw [classIds_toJson, List.map_map]
    rfl
  · rwa [attributeIds_toJson, ← List.forall₂_eq_eq_eq]

theorem compactId_of_shortenedBy (hterm : n.term = .iri iri) (hm : T.namespaces.ShortenedBy iri m)
    (hlonger : m.namespaceIri.length < iri.length) : T.compactId n = m.name ++ ":" ++ m.localName := by
  have hid : n.identifier = iri := congrArg Term.identifier hterm
  have hcompact := compact_identifier ⟨iri, m, hterm, hm, hlonger⟩
  obtain ⟨m', hm', hname⟩ := compact_eq_some_iff.1 (hid ▸ hcompact)
  rw [hname, hm'.unique hm]

/-! ## The main result -/

/-- **Which identifiers can be read by the vocabulary alone.** It lists its class, the descendants and
the properties by their compact identifiers. For a node in a bound namespace, however the table has been
bound, the context declares the prefix with this namespace just when it is one of seven, or is `vocab`
and stands for the terms of the vocabulary. The context leads from the identifier back to the IRI just
when it declares the prefix so and no `//` follows; where the prefix is not read, only if the namespace
is the prefix with its colon. -/
theorem vocabulary_ids_readable_iff (T : Taxonomy) (settings : Settings) (n : Node)
    {vocabulary : Vocabulary} (bindings : List (String × String))
    (htable : empty.bindAll bindings = T.namespaces) (hcolon : T.namespaces.ColonFree)
    (h : T.vocabulary settings n = .ok vocabulary) :
    vocabulary.toJson.get? "@context" = some vocabulary.context ∧
      classIds vocabulary.toJson = (n :: T.descendants n).map T.compactId ∧
      attributeIds vocabulary.toJson = (T.allProperties n).map T.compactId ∧
      ∀ node iri m, node.term = .iri iri → T.namespaces.ShortenedBy iri m →
        m.namespaceIri.length < iri.length →
        T.compactId node = m.name ++ ":" ++ m.localName ∧
        (declaredIri vocabulary.context m.name = some m.namespaceIri ↔
          m.name ∈ declaredPrefixes ∨
            m.name = "vocab" ∧ m.namespaceIri = vocabulary.id ++ "#") ∧
        (expandIn vocabulary.context (T.compactId node) = iri ↔
          if Text.startsWith "//" m.localName ∨ declaredIri vocabulary.context m.name = none then
            m.namespaceIri = m.name ++ ":"
          else declaredIri vocabulary.context m.name = some m.namespaceIri) := by
  obtain ⟨hcontext, hclasses, hattributes⟩ := vocabulary_eq_ok h
  refine ⟨rfl, hclasses, hattributes, fun node iri m hterm hm hlonger => ?_⟩
  have hid := compactId_of_shortenedBy hterm hm hlonger
  have hbound : T.namespaces.iriFor m.name = some m.namespaceIri :=
    (iriFor_eq_some_iff (prefixesDistinct_of_bindAll htable)).2 hm.mem_bindings
  refine ⟨hid, ?_, ?_⟩
  · rw [hcontext]
    exact declaredIri_vocabularyContext_iff hbound
  · rw [hid, ← hm.append_eq]
    exact expandIn_eq_iff (hcolon _ hm.mem_bindings)

/-! ## A prefix from the settings -/

/-- Settings that bind `ex` beside the standard prefixes. -/
def exampleSettings : Settings := { namespaces := [("ex", "https://example.org/vocab#")] }

/-- A house in the namespace of `ex` with a size in that of `pot`. -/
def exampleHouse : Taxonomy where
  store := .ofList
    [⟨.iri "https://example.org/vocab#House", Rdf.type, .iri Rdfs.classType⟩,
     ⟨.iri "https://standards.oftrust.net/ontologies/pot.jsonld#size", Rdfs.domain,
       .iri "https://example.org/vocab#House"⟩]
  namespaces := exampleSettings.namespaceTable

/-- The house lies in the namespace of `ex`, its size in that of `pot`. -/
theorem shortenedBy_exampleHouse :
    exampleHouse.namespaces.ShortenedBy "https://example.org/vocab#House"
        ⟨"ex", "https://example.org/vocab#", "House"⟩ ∧
      exampleHouse.namespaces.ShortenedBy "https://standards.oftrust.net/ontologies/pot.jsonld#size"
        ⟨"pot", Pot.namespaceIri, "size"⟩ :=
  ⟨⟨by decide, by decide, by decide +kernel, by decide⟩,
    ⟨by decide, by decide, by decide +kernel, by decide⟩⟩

theorem exists_vocabulary_exampleHouse : ∃ vocabulary, exampleHouse.vocabulary exampleSettings
    (.ofClass (.iri "https://example.org/vocab#House")) = .ok vocabulary := by
  have htitle {iri : String} {m : NamespaceTable.Match}
      (h : exampleHouse.namespaces.ShortenedBy iri m) (hlocal : m.localName ≠ "") :
      (exampleHouse.title (.ofClass (.iri iri))).toOption.isSome := by
    have hsplit : exampleHouse.split (.ofClass (.iri iri)) = .ok (m.name, m.localName) :=
      h.split_eq.trans (if_neg hlocal)
    rw [title_eq_ok_iff.2 ⟨_, hsplit⟩]
    rfl
  have hsubjects : ∀ t ∈ exampleHouse.store.triples,
      (exampleHouse.title (.ofClass t.subject)).toOption.isSome := by
    refine List.forall_mem_cons.2 ⟨?_, List.forall_mem_singleton.2 ?_⟩
    · exact htitle shortenedBy_exampleHouse.1 (by decide)
    · exact htitle shortenedBy_exampleHouse.2 (by decide)
  have hproperties : exampleHouse.allProperties
      (.ofClass (.iri "https://example.org/vocab#House")) =
        [.ofProperty (.iri "https://standards.oftrust.net/ontologies/pot.jsonld#size")] :=
    allProperties_of_subjects_eq (by decide) rfl
  rw [← not_fails_iff, fails_vocabulary_iff]
  refine (titled_of_subjects hsubjects (by decide)).not_fails_classRecord fun p hp => ?_
  rw [hproperties, List.mem_singleton] at hp
  exact titled_of_subjects hsubjects (hp ▸ by decide)

/-- **A prefix from the settings is used and not declared**: the identifier of the class cannot be read
by its own vocabulary. -/
theorem bound_prefix_undeclared : ∃ vocabulary,
    exampleHouse.vocabulary exampleSettings (.ofClass (.iri "https://example.org/vocab#House")) =
        .ok vocabulary ∧
      exampleHouse.namespaces.ColonFree ∧
      exampleHouse.InNamespace (.ofClass (.iri "https://example.org/vocab#House")) ∧
      "ex:House" ∈ classIds vocabulary.toJson ∧
      declaredIri vocabulary.context "ex" = none ∧
      expandIn vocabulary.context "ex:House" = "ex:House" := by
  obtain ⟨vocabulary, hvocabulary⟩ := exists_vocabulary_exampleHouse
  obtain ⟨hcontext, hclasses, -⟩ := vocabulary_eq_ok hvocabulary
  have hin : exampleHouse.InNamespace (.ofClass (.iri "https://example.org/vocab#House")) :=
    ⟨_, _, rfl, shortenedBy_exampleHouse.1, by decide⟩
  have hid : exampleHouse.compactId (.ofClass (.iri "https://example.org/vocab#House")) =
      "ex:House" := compactId_of_shortenedBy rfl shortenedBy_exampleHouse.1 (by decide)
  have hundeclared : declaredIri vocabulary.context "ex" = none :=
    hcontext ▸ declaredIri_of_notMem (by decide) (by decide)
  refine ⟨vocabulary, hvocabulary, by decide, hin, ?_, hundeclared, ?_⟩
  · rw [hclasses, List.map_cons, hid]
    exact List.mem_cons_self
  · rw [show "ex:House" = "ex" ++ ":" ++ "House" by decide, expandIn_eq (by decide), hundeclared]
    rfl

/-- The size of the house can be read, and the house cannot. -/
theorem exampleHouse_size_readable : ∃ vocabulary,
    exampleHouse.vocabulary exampleSettings (.ofClass (.iri "https://example.org/vocab#House")) =
        .ok vocabulary ∧
      exampleHouse.namespaces.ColonFree ∧
      declaredIri vocabulary.context "pot" = some Pot.namespaceIri ∧
      expandIn vocabulary.context "pot:size" = Pot.namespaceIri ++ "size" ∧
      expandIn vocabulary.context "ex:House" ≠ "https://example.org/vocab#House" := by
  obtain ⟨vocabulary, hvocabulary⟩ := exists_vocabulary_exampleHouse
  obtain ⟨bindings, htable⟩ : ∃ bindings, empty.bindAll bindings = exampleHouse.namespaces :=
    ⟨_, List.foldl_append⟩
  have hcolon : exampleHouse.namespaces.ColonFree := by decide
  obtain ⟨-, -, -, hread⟩ := vocabulary_ids_readable_iff exampleHouse exampleSettings
    (.ofClass (.iri "https://example.org/vocab#House")) bindings htable hcolon hvocabulary
  obtain ⟨hhouse, hsize⟩ := shortenedBy_exampleHouse
  obtain ⟨hid, hdeclared, hback⟩ := hread (.ofProperty (.iri _)) _ _ rfl hsize (by decide)
  obtain ⟨hid', hdeclared', hback'⟩ := hread (.ofClass (.iri _)) _ _ rfl hhouse (by decide)
  have hpot := hdeclared.2 (Or.inl (by decide))
  refine ⟨vocabulary, hvocabulary, hcolon, hpot, ?_, fun hsame => ?_⟩
  · have hsizeback := hback.2 (by rw [if_neg (by rw [hpot]; decide)]; exact hpot)
    rwa [hid] at hsizeback
  · have hmisread := hback'.1 (by rwa [hid'])
    split_ifs at hmisread
    · exact absurd hmisread (by decide)
    · rcases hdeclared'.1 hmisread with hname | ⟨hname, -⟩
      · exact absurd hname (by decide)
      · exact absurd hname (by decide)

end Taxonomy

end TaxonomyPress
