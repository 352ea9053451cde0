import TaxonomyPress.Proofs.Attributes
import TaxonomyPress.Proofs.Compaction
import TaxonomyPress.Proofs.Directories
import TaxonomyPress.Proofs.Duality

/-!
# Which classes compact identifiers tell apart

A compact identifier is made with a bound prefix, with one that is read off an IRI, or is the identifier
itself. Only of the first kind it stands for one IRI.

* `Taxonomy.InNamespace` : a node is an IRI in a bound namespace, and not the namespace itself;
* `Taxonomy.expand_compactId` : then its compact identifier stands for it, so that no other node like
  this has the same (`Taxonomy.term_eq_of_compactId_eq`);
* `Taxonomy.SharesName` : what two nodes with one compact identifier have in common;
* `classIds` : the identifiers that the body of a vocabulary lists classes by;
* `Taxonomy.ListsCompactIds` : in the documents of a build these are compact identifiers;
* `Taxonomy.compact_ids_tell_apart` : so they identify the classes in bound namespaces.
-/

namespace TaxonomyPress

namespace Taxonomy

open NamespaceTable

variable {T : Taxonomy} {c d n : Node}

/-! ## Prefix and local name, or the identifier -/

theorem compactId_of_split {front title : String} (h : T.split n = .ok (front, title)) :
    T.compactId n = front ++ ":" ++ title := by
  rw [compactId, h]

theorem compactId_of_fails (h : Fails (T.split n)) : T.compactId n = n.identifier := by
  obtain ⟨cause, hcause⟩ := h
  rw [compactId, hcause]

/-! ## Nodes in bound namespaces -/

/-- `n` is an IRI that is longer than the longest bound namespace in which it lies. -/
def InNamespace (T : Taxonomy) (n : Node) : Prop := ∃ iri m, n.term = .iri iri ∧
  T.namespaces.ShortenedBy iri m ∧ m.namespaceIri.length < iri.length

theorem compact_identifier (h : T.InNamespace n) :
    T.namespaces.compact n.identifier = some (T.compactId n) := by
  obtain ⟨kind, term⟩ := n
  obtain ⟨iri, m, rfl, hm, hlonger⟩ := h
  have hsplit : T.split ⟨kind, .iri iri⟩ = .ok (m.name, m.localName) := by
    show T.namespaces.split iri = _
    rw [hm.split_eq, if_neg fun hempty => hm.localName_eq_empty_iff.1 hempty hlonger]
  exact compact_eq_some_iff.2 ⟨m, hm, compactId_of_split hsplit⟩

theorem term_eq_of_identifier_eq (hc : T.InNamespace c) (hd : T.InNamespace d)
    (h : c.identifier = d.identifier) : c.term = d.term := by
  obtain ⟨kind, term⟩ := c
  obtain ⟨kind', term'⟩ := d
  obtain ⟨iri, -, rfl, -⟩ := hc
  obtain ⟨iri', -, rfl, -⟩ := hd
  exact congrArg Term.iri h

section

variable (hdistinct : T.namespaces.PrefixesDistinct) (hcolon : T.namespaces.ColonFree)

include hdistinct hcolon

theorem expand_compactId (h : T.InNamespace n) :
    T.namespaces.expand (T.compactId n) = some n.identifier :=
  expand_compact hdistinct hcolon (compact_identifier h)

/-- Of the nodes in bound namespaces no two have one compact identifier. -/
theorem term_eq_of_compactId_eq (hc : T.InNamespace c) (hd : T.InNamespace d)
    (h : T.compactId c = T.compactId d) : c.term = d.term := by
  refine term_eq_of_identifier_eq hc hd (Option.some.inj ?_)
  calc some c.identifier
      = T.namespaces.expand (T.compactId c) := (expand_compactId hdistinct hcolon hc).symm
    _ = T.namespaces.expand (T.compactId d) := by rw [h]
    _ = some d.identifier := expand_compactId hdistinct hcolon hd

end

/-! ## Names of two nodes -/

/-- What is known of the nodes `c` and `d` with one compact identifier. At least one of them has prefix
and local name, and at most one lies in a bound namespace. If `c` does, the compact identifier of `d`
stands for it. Prefixes without a colon are the same, and so are then the local names. -/
structure SharesName (T : Taxonomy) (c d : Node) : Prop where
  not_fails : ¬ (Fails (T.split c) ∧ Fails (T.split d))
  not_inNamespace : ¬ (T.InNamespace c ∧ T.InNamespace d)
  expand_eq : T.InNamespace c → T.namespaces.expand (T.compactId d) = some c.identifier
  split_eq : ∀ front title front' title', T.split c = .ok (front, title) →
    T.split d = .ok (front', title') → ':' ∉ front.toList → ':' ∉ front'.toList →
    front = front' ∧ title = title'

theorem sharesName (hdistinct : T.namespaces.PrefixesDistinct) (hcolon : T.namespaces.ColonFree)
    (h : T.compactId c = T.compactId d) (hne : c.identifier ≠ d.identifier) : T.SharesName c d where
  not_fails := by
    rintro ⟨hc, hd⟩
    rw [compactId_of_fails hc, compactId_of_fails hd] at h
    exact hne h
  not_inNamespace := by
    rintro ⟨hc, hd⟩
    exact hne (congrArg Term.identifier (term_eq_of_compactId_eq hdistinct hcolon hc hd h))
  expand_eq hc := h ▸ expand_compactId hdistinct hcolon hc
  split_eq := by
    -- Both names are one text, which is cut at its first colon.
    intro front title front' title' hc hd hfront hfront'
    have hcut : Text.cutAtFirst ':' (T.compactId c) = some (front, title) := by
      rw [compactId_of_split hc, Text.cutAtFirst_append title rfl hfront]
    have hcut' : Text.cutAtFirst ':' (T.compactId d) = some (front', title') := by
      rw [compactId_of_split hd, Text.cutAtFirst_append title' rfl hfront']
    rw [h, hcut'] at hcut
    exact Prod.mk.inj (Option.some.inj hcut.symm)

end Taxonomy

/-! ## Identifiers in documents -/

/-- The identifiers of the classes that the body of a vocabulary lists. -/
def classIds (body : Json) : List String := (supportedClasses body).filterMap (textAt "@id")

theorem get?_oneOrManyMember_of_ne {key name : String} (items : List String) (h : name ≠ key) :
    (Json.ofEntries (oneOrManyMember name items)).get? key = none := by
  refine Json.get?_ofEntries_of_forall_ne fun entry hentry => ?_
  unfold oneOrManyMember at hentry
  split at hentry
  · cases hentry
  all_goals rwa [List.mem_singleton.1 hentry]

theorem textAt_id_classEntry (entry : ClassEntry) : textAt "@id" entry.toJson = some entry.id := by
  unfold textAt ClassEntry.toJson ClassEntry.description languageMember
  simp [Json.get?_ofEntries_append, Json.get?_ofEntries_cons, get?_optional_of_ne,
    get?_textMember_of_ne, get?_oneOrManyMember_of_ne, Json.asString?]

namespace Taxonomy

open NamespaceTable

variable {T : Taxonomy} {settings : Settings} {n : Node} {documents : List Document}
  {document : Document}

/-- A vocabulary lists its class and the descendants, by their compact identifiers. -/
theorem classIds_of_mem_classDocuments (h : T.classDocuments settings n = .ok documents)
    (hdocument : document ∈ documents) (hkind : document.kind = .vocabulary) :
    classIds document.body = (n :: T.descendants n).map T.compactId := by
  have hid : (textAt "@id" ∘ fun m => (T.classEntry m).toJson) = some ∘ T.compactId := by
    funext m
    rw [Function.comp_apply, textAt_id_classEntry]
    rfl
  unfold classIds
  rw [supportedClasses_of_mem_classDocuments h hdocument hkind, List.filterMap_map, hid,
    ← List.filterMap_eq_map]

theorem mem_memberIds_classIndex {l : Lineage} {id : String} :
    id ∈ memberIds (T.classIndex settings n l).toJson ↔ ∃ c ∈ T.children n,
      (∃ title, T.title c = .ok title) ∧ T.compactId c = id := by
  rw [memberIds_toJson, List.mem_map]
  constructor
  · rintro ⟨entry, hentry, rfl⟩
    obtain ⟨c, hc, title, htitle, rfl⟩ := mem_members_classIndex.1 hentry
    exact ⟨c, hc, ⟨title, htitle⟩, rfl⟩
  · rintro ⟨c, hc, ⟨title, htitle⟩, rfl⟩
    exact ⟨_, mem_members_classIndex.2 ⟨c, hc, title, htitle, rfl⟩, rfl⟩

/-- The index of a class lists its children, by their compact identifiers. -/
theorem mem_memberIds_of_mem_classDocuments (h : T.classDocuments settings n = .ok documents)
    (hdocument : document ∈ documents) (hkind : document.kind = .index) {id : String} :
    id ∈ memberIds document.body ↔ ∃ c ∈ T.children n,
      (∃ title, T.title c = .ok title) ∧ T.compactId c = id := by
  obtain ⟨lineages, bodies, canonicalId, -, rfl⟩ := classDocuments_eq_ok_iff.1 h
  rcases List.mem_append.1 hdocument with hdocument | hdocument
  · obtain ⟨l, -, hdocument⟩ := List.mem_flatMap.1 hdocument
    rcases mem_lineageDocuments_iff.1 hdocument with rfl | ⟨_, _, rfl⟩ | ⟨_, _, rfl⟩ | ⟨_, rfl⟩
    · cases hkind
    · cases hkind
    · cases hkind
    · exact mem_memberIds_classIndex
  · rw [List.mem_singleton.1 hdocument] at hkind
    cases hkind

theorem mem_memberIds_rootDocument {id : String} :
    id ∈ memberIds (T.rootDocument settings).body ↔ ∃ n ∈ T.classes,
      (∃ documents, T.classDocuments settings n = .ok documents) ∧ T.realParents n = [] ∧
        (∃ title, T.title n = .ok title) ∧ T.compactId n = id := by
  have hids : memberIds (T.rootDocument settings).body = (T.rootEntries settings).map (·.1) := by
    unfold rootDocument
    rw [memberIds_toJson]
    exact List.map_map
  rw [hids, List.mem_map]
  constructor
  · rintro ⟨entry, hentry, rfl⟩
    obtain ⟨n, hn, hbuilt, hroot, hid, htitle⟩ := mem_rootEntries_iff.1 hentry
    exact ⟨n, hn, hbuilt, hroot, ⟨entry.2, htitle⟩, hid⟩
  · rintro ⟨n, hn, hbuilt, hroot, ⟨title, htitle⟩, rfl⟩
    exact ⟨(T.compactId n, title), mem_rootEntries_iff.2 ⟨n, hn, hbuilt, hroot, rfl, htitle⟩, rfl⟩

/-- The identifiers by which the documents of a build list classes are compact identifiers: of a class
and its descendants, of the children of a class, and of the classes without parents. -/
structure ListsCompactIds (T : Taxonomy) (settings : Settings) : Prop where
  vocabulary : ∀ n documents, T.classDocuments settings n = .ok documents →
    ∀ document ∈ documents, document.kind = .vocabulary →
      classIds document.body = (n :: T.descendants n).map T.compactId
  index : ∀ n documents, T.classDocuments settings n = .ok documents →
    ∀ document ∈ documents, document.kind = .index →
      ∀ id, id ∈ memberIds document.body ↔ ∃ c ∈ T.children n,
        (∃ title, T.title c = .ok title) ∧ T.compactId c = id
  root : ∀ id, id ∈ memberIds (T.rootDocument settings).body ↔ ∃ n ∈ T.classes,
    (∃ documents, T.classDocuments settings n = .ok documents) ∧ T.realParents n = [] ∧
      (∃ title, T.title n = .ok title) ∧ T.compactId n = id

theorem listsCompactIds (T : Taxonomy) (settings : Settings) : T.ListsCompactIds settings where
  vocabulary _ _ h _ := classIds_of_mem_classDocuments h
  index _ _ h _ hdocument hkind _ := mem_memberIds_of_mem_classDocuments h hdocument hkind
  root _ := mem_memberIds_rootDocument

/-! ## The main result -/

/-- **Compact identifiers tell classes in bound namespaces apart**, however the table has been bound,
if no prefix has a colon. A name, be it in the settings or in a document, is the compact identifier of at
most one of them, and the documents of every build list classes by these identifiers. Where the compact
identifiers of different nodes are the same, one of the nodes at least does not lie so. -/
theorem compact_ids_tell_apart (T : Taxonomy) (bindings : List (String × String))
    (htable : empty.bindAll bindings = T.namespaces) (hcolon : T.namespaces.ColonFree) :
    (∀ name c d, T.InNamespace c → T.InNamespace d → T.compactId c = name → T.compactId d = name →
      c.term = d.term) ∧
      (∀ settings, T.ListsCompactIds settings) ∧
      ∀ c d, T.compactId c = T.compactId d → c.identifier ≠ d.identifier → T.SharesName c d := by
  have hdistinct : T.namespaces.PrefixesDistinct := prefixesDistinct_of_bindAll htable
  refine ⟨fun name c d hc hd hname hname' => ?_, T.listsCompactIds, fun c d h hne => ?_⟩
  · exact term_eq_of_compactId_eq hdistinct hcolon hc hd (hname.trans hname'.symm)
  · exact sharesName hdistinct hcolon h hne

/-- A class in a bound namespace, two in others that end like its prefix, and one whose IRI is written
like a prefixed name. -/
def homonyms : Taxonomy where
  store := .ofList
    [⟨.iri "http://x/o#A", Rdf.type, .iri Rdfs.classType⟩,
     ⟨.iri "http://y/o#A", Rdf.type, .iri Rdfs.classType⟩,
     ⟨.iri "http://z/o/A", Rdf.type, .iri Rdfs.classType⟩,
     ⟨.iri "o:A", Rdf.type, .iri Rdfs.classType⟩]
  namespaces := empty.bindAll [("o", "http://x/o#")]

/-- All four have one compact identifier, and the settings name them all by it. -/
theorem homonyms_share_one_name :
    empty.bindAll [("o", "http://x/o#")] = homonyms.namespaces ∧ homonyms.namespaces.ColonFree ∧
      homonyms.classes.map Node.identifier =
        ["http://x/o#A", "http://y/o#A", "http://z/o/A", "o:A"] ∧
      homonyms.classes.map homonyms.compactId = ["o:A", "o:A", "o:A", "o:A"] ∧
      ∀ c ∈ homonyms.classes, ({ excludedClasses := ["o:A"] } : Settings).excludes homonyms c := by
  have hids : homonyms.classes.map homonyms.compactId = ["o:A", "o:A", "o:A", "o:A"] := by
    decide
  refine ⟨rfl, by decide, by decide, hids, fun c hc => ?_⟩
  have hid : homonyms.compactId c ∈ ["o:A", "o:A", "o:A", "o:A"] := hids ▸ List.mem_map_of_mem hc
  simp at hid
  simp [Settings.excludes, isNamedIn, hid]

/-- Only one of them lies in a bound namespace, which its name stands for. -/
theorem homonyms_told_apart :
    homonyms.namespaces.ColonFree ∧
      homonyms.compactId (.ofClass (.iri "http://x/o#A")) =
        homonyms.compactId (.ofClass (.iri "http://y/o#A")) ∧
      homonyms.InNamespace (.ofClass (.iri "http://x/o#A")) ∧
      ¬ homonyms.InNamespace (.ofClass (.iri "http://y/o#A")) ∧
      homonyms.namespaces.expand (homonyms.compactId (.ofClass (.iri "http://y/o#A"))) =
        some "http://x/o#A" ∧
      homonyms.InNamespace (.ofClass (.iri "http://x/o#B")) ∧
      homonyms.compactId (.ofClass (.iri "http://x/o#B")) ≠ "o:A" := by
  have hcolon : homonyms.namespaces.ColonFree := by decide
  have hsame : homonyms.compactId (.ofClass (.iri "http://x/o#A")) =
      homonyms.compactId (.ofClass (.iri "http://y/o#A")) := by decide
  have hA : homonyms.InNamespace (.ofClass (.iri "http://x/o#A")) :=
    ⟨"http://x/o#A", ⟨"o", "http://x/o#", "A"⟩, rfl,
      ⟨by decide, by decide, by decide, by decide⟩, by decide⟩
  have hB : homonyms.InNamespace (.ofClass (.iri "http://x/o#B")) :=
    ⟨"http://x/o#B", ⟨"o", "http://x/o#", "B"⟩, rfl,
      ⟨by decide, by decide, by decide, by decide⟩, by decide⟩
  obtain ⟨hunique, -, hshared⟩ := compact_ids_tell_apart homonyms [("o", "http://x/o#")] rfl hcolon
  have hname := hshared _ _ hsame (by decide)
  refine ⟨hcolon, hsame, hA, fun hy => hname.not_inNamespace ⟨hA, hy⟩, hname.expand_eq hA, hB,
    fun hB' => ?_⟩
  exact absurd (hunique "o:A" _ _ hA hB (by decide) hB') (by decide)

end Taxonomy

end TaxonomyPress
