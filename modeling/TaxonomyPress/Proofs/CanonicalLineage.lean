import TaxonomyPress.Proofs.CanonicalPath
import TaxonomyPress.Proofs.Documents
import TaxonomyPress.Proofs.IdentityContexts
import TaxonomyPress.Proofs.PathNames

/-!
# Reading the path back from a canonical identifier

A canonical identifier is a prefix, a colon and the titles of the chain of first parents. The documents
read the path back by a cut at the first colon. Prefixes may have colons themselves, as the one inferred
from `http://localhost:8080/` does, and then the cut is too early.

* `Taxonomy.AddressedBy` : the addresses that the documents of a class give, and the place of its fragment;
* `Taxonomy.addressedBy_titles` : they are those of the titles of the chain, if the prefix has no colon;
* `Taxonomy.canonical_lineage_decodes` : the path read back is the path written just when the prefix has no
  colon; otherwise the rest of the prefix stands before it.
-/

namespace TaxonomyPress.Taxonomy

variable {T : Taxonomy} {settings : Settings} {n : Node}

/-! ## Addresses -/

theorem context_of_vocabulary {vocabulary : Vocabulary}
    (h : T.vocabulary settings n = .ok vocabulary) :
    vocabulary.context = vocabularyContext settings T.namespaces (vocabulary.id ++ "#") := by
  unfold Taxonomy.vocabulary at h
  obtain ⟨id, -, h⟩ := bind_eq_ok_iff.1 h
  obtain ⟨attributes, -, h⟩ := bind_eq_ok_iff.1 h
  obtain rfl : _ = vocabulary := Except.ok.inj h
  rfl

/-- Whichever documents `n` has, the addresses in them are those of `titles`, and its one ontology fragment
lies at the pieces of these. -/
structure AddressedBy (T : Taxonomy) (settings : Settings) (n : Node) (titles : Lineage) : Prop where
  vocabulary_id : ∀ vocabulary, T.vocabulary settings n = .ok vocabulary →
    vocabulary.id = documentUrl settings.baseUrl .vocabulary titles
  vocabulary_context : ∀ vocabulary, T.vocabulary settings n = .ok vocabulary →
    vocabulary.context = vocabularyContext settings T.namespaces
      (documentUrl settings.baseUrl .vocabulary titles ++ "#")
  identity_base : ∀ identity, T.identity settings n = .ok identity →
    identity.base = identityContext settings T.namespaces
      (documentUrl settings.baseUrl .vocabulary titles ++ "#")
  definition_id : ∀ definition, T.definition settings n = .ok definition →
    definition.id = documentUrl settings.baseUrl .classDefinitions titles
  definition_context : ∀ definition, T.definition settings n = .ok definition →
    definition.contextUrl = documentUrl settings.baseUrl .context titles ++ ".jsonld"
  fragment_path : ∀ documents, T.classDocuments settings n = .ok documents →
    documents.filter (·.kind = .ontology) =
      [⟨.ontology, documentPath .ontology (titles.flatMap (Text.segments '/')), T.fragment settings n⟩]

theorem canonicalLineage_titles {front : String} {titles : Lineage} (hfront : ':' ∉ front.toList)
    (hne : titles ≠ []) : canonicalLineage (front ++ ":" ++ Text.join "/" titles) =
      titles.flatMap (Text.segments '/') := by
  rw [canonicalLineage_append _ hfront, Text.segments_join_eq_flatMap rfl hne]

theorem addressedBy_titles {front : String} {titles : Lineage}
    (hid : T.canonicalId n = .ok (front ++ ":" ++ Text.join "/" titles))
    (hfront : ':' ∉ front.toList) (hne : titles ≠ []) : T.AddressedBy settings n titles := by
  have hurl : ∀ area, documentUrl settings.baseUrl area
      (canonicalLineage (front ++ ":" ++ Text.join "/" titles)) =
        documentUrl settings.baseUrl area titles :=
    fun area => documentUrl_canonicalLineage settings.baseUrl area titles hfront
  constructor
  case vocabulary_id =>
    intro vocabulary h
    rw [id_of_vocabulary h hid, hurl]
  case vocabulary_context =>
    intro vocabulary h
    rw [context_of_vocabulary h, id_of_vocabulary h hid, hurl]
  case identity_base =>
    intro identity h
    obtain ⟨⟨id, hid', hbase⟩, -⟩ := identity_eq_ok h
    obtain rfl : _ = id := Except.ok.inj (hid.symm.trans hid')
    rw [hbase, hurl]
  case definition_id =>
    intro definition h
    rw [(urls_of_definition h hid).1, hurl]
  case definition_context =>
    intro definition h
    rw [(urls_of_definition h hid).2, hurl]
  case fragment_path =>
    intro documents h
    obtain ⟨lineages, bodies, id, hbuilt, rfl⟩ := classDocuments_eq_ok_iff.1 h
    obtain rfl : _ = id := Except.ok.inj (hid.symm.trans hbuilt.canonicalId_eq)
    rw [filter_ontology, fragmentDocument, canonicalLineage_titles hfront hne]

theorem canonicalTitles_ne_nil {titles : List String} (h : T.canonicalTitles n = .ok titles) :
    titles ≠ [] := by
  rintro rfl
  have hlength := (mapM_eq_ok_iff.1 (canonicalTitles_eq_ok_iff.1 h)).length_eq
  rw [List.length_reverse] at hlength
  cases hlength

/-! ## The main result -/

/-- **The path of a canonical identifier is read back**, on every graph and with every table of
namespaces, if and only if the prefix has no colon. Then the titles read are those of the chain of first
parents, root first, each cut at its slashes, and all addresses of the class are its own. What stands
behind the first colon of a prefix goes into the path. -/
theorem canonical_lineage_decodes (T : Taxonomy) (c : Term) {id : String}
    (hid : T.canonicalId (.ofClass c) = .ok id) :
    ∃ front title titles, T.split (.ofClass c) = .ok (front, title) ∧
      (.ofClass c :: T.firstParents (.ofClass c)).reverse.mapM T.title = .ok titles ∧
      id = front ++ ":" ++ Text.join "/" titles ∧
      (Text.join "/" (canonicalLineage id) = Text.join "/" titles ↔ ':' ∉ front.toList) ∧
      (∀ outer inner, ':' ∉ outer.toList → front = outer ++ ":" ++ inner →
        Text.join "/" (canonicalLineage id) = inner ++ ":" ++ Text.join "/" titles) ∧
      (':' ∉ front.toList →
        canonicalLineage id = titles.flatMap (Text.segments '/') ∧
        ((∀ title ∈ titles, '/' ∉ title.toList) → canonicalLineage id = titles) ∧
        ∀ settings, T.AddressedBy settings (.ofClass c) titles) := by
  obtain ⟨front, title, titles, hsplit, htitles, rfl⟩ := canonicalId_eq_ok_iff.1 hid
  have hne : titles ≠ [] := canonicalTitles_ne_nil htitles
  refine ⟨front, title, titles, hsplit, canonicalTitles_eq_ok_iff.1 htitles, rfl,
    join_canonicalLineage_iff, ?_, fun hfront => ⟨canonicalLineage_titles hfront hne, ?_, ?_⟩⟩
  · rintro outer inner houter rfl
    exact join_canonicalLineage_of_colon inner _ houter
  · intro hslash
    rw [canonicalLineage_append _ hfront, Text.segments_join rfl hne hslash]
  · intro settings
    exact addressedBy_titles hid hfront hne

/-- The identifier of `A` on the loop with an exit gives its path back. -/
theorem loopWithExit_decoded :
    loopWithExit.canonicalId (.ofClass (.iri "http://x/o#A")) = .ok "o:B/A" ∧
      canonicalLineage "o:B/A" = ["B", "A"] ∧
      loopWithExit.AddressedBy {} (.ofClass (.iri "http://x/o#A")) ["B", "A"] := by
  have hsplit : loopWithExit.split (.ofClass (.iri "http://x/o#A")) = .ok ("o", "A") := by
    decide
  have htitles : loopWithExit.canonicalTitles (.ofClass (.iri "http://x/o#A")) = .ok ["B", "A"] := by
    rw [canonicalTitles_eq_ok_iff, firstParents_loopWithExit_A]
    exact mapM_eq_ok_iff.2 (.cons title_loopWithExit_B (.cons title_loopWithExit_A .nil))
  have hid : loopWithExit.canonicalId (.ofClass (.iri "http://x/o#A")) = .ok "o:B/A" :=
    canonicalId_eq_ok_iff.2 ⟨"o", "A", ["B", "A"], hsplit, htitles, by decide⟩
  obtain ⟨front, title, titles, hsplit', htitles', -, -, -, hdecoded⟩ :=
    canonical_lineage_decodes loopWithExit (.iri "http://x/o#A") hid
  have hnames : ("o", "A") = (front, title) := Except.ok.inj (hsplit.symm.trans hsplit')
  obtain ⟨rfl, rfl⟩ := Prod.mk.inj hnames
  obtain rfl : ["B", "A"] = titles :=
    Except.ok.inj (htitles.symm.trans (canonicalTitles_eq_ok_iff.2 htitles'))
  obtain ⟨-, hlineage, haddressed⟩ := hdecoded (by decide)
  exact ⟨hid, hlineage (by decide), haddressed {}⟩

/-- The port of a local host is taken for the beginning of the path. -/
theorem port_in_canonical_lineage :
    (soleClass "http://localhost:8080/House").canonicalId
        (.ofClass (.iri "http://localhost:8080/House")) = .ok "localhost:8080:House" ∧
      (soleClass "http://localhost:8080/House").canonicalTitles
        (.ofClass (.iri "http://localhost:8080/House")) = .ok ["House"] ∧
      canonicalLineage "localhost:8080:House" = ["8080:House"] ∧
      Text.join "/" (canonicalLineage "localhost:8080:House") ≠ Text.join "/" ["House"] := by
  let T := soleClass "http://localhost:8080/House"
  let House : Node := .ofClass (.iri "http://localhost:8080/House")
  have hsplit : T.split House = .ok ("localhost:8080", "House") := by decide
  have htitle : T.title House = .ok "House" := by decide
  have htitles : T.canonicalTitles House = .ok ["House"] :=
    canonicalTitles_of_root (realParents_soleClass _ _) htitle
  have hid : T.canonicalId House = .ok "localhost:8080:House" :=
    canonicalId_eq_ok_iff.2 ⟨"localhost:8080", "House", ["House"], hsplit, htitles, by decide⟩
  exact ⟨hid, htitles, by decide, by decide⟩

end TaxonomyPress.Taxonomy
