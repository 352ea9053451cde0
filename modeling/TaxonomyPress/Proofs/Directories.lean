import TaxonomyPress.Proofs.Dictionaries
import TaxonomyPress.Proofs.Documents
import Mathlib.Data.List.Induction

/-!
# Directories and lineages describe one tree

An index lists children, which are found downwards; a lineage is found upwards. Where no class lies
above itself both give the same addresses.

* `Taxonomy.mem_lineages_iff_ancestorPath` : the lineages of a class are the titles of its ancestor
  paths; a path of a child is one of a parent and the child
  (`Taxonomy.ancestorPath_cons_cons_iff`), and so with lineages
  (`Taxonomy.mem_lineages_cases`, `Taxonomy.mem_lineages_concat`);
* `memberUrls`, `memberIds` : the addresses and the identifiers that the body of an index lists
  (`Taxonomy.mem_members_classIndex`);
* `DocumentSet.Reaches` : an address that one comes to from the root index;
* `Taxonomy.indexes_list_lineages` : the indexes list the addresses of all lineages, and one comes to
  every one of them.
-/

namespace TaxonomyPress

open Relation

namespace Taxonomy

variable {T : Taxonomy}

/-! ## Lineages of children -/

/-- No class lies above itself. -/
def Acyclic (T : Taxonomy) : Prop := ∀ n : Node, n.kind = .classNode → ¬ T.Above n n

theorem mem_lineages_iff_ancestorPath (hT : T.store.Unambiguous) {n : Node}
    {lineages : List Lineage} (h : T.lineages n = .ok lineages) {l : Lineage} :
    l ∈ lineages ↔ ∃ path, T.AncestorPath n path ∧ path.reverse.mapM T.title = .ok l := by
  constructor
  · intro hl
    obtain ⟨path, hpath, htitles⟩ := lineages_sound h hl
    exact ⟨path, (climb_iff_ancestorPath hT).1 hpath, htitles⟩
  · rintro ⟨path, hpath, htitles⟩
    obtain ⟨l', hl', htitles'⟩ := lineages_complete h ((climb_iff_ancestorPath hT).2 hpath)
    obtain rfl : l' = l := Except.ok.inj (htitles'.symm.trans htitles)
    exact hl'

theorem above_of_mem_steps {n m : Node} {rest : List Node}
    (h : (n :: rest).IsChain T.RealParent) (hm : m ∈ rest) : T.Above n m := by
  induction rest generalizing n with
  | nil => cases hm
  | cons p rest ih =>
    obtain ⟨hp, hrest⟩ := List.isChain_cons_cons.1 h
    rcases List.mem_cons.1 hm with rfl | hm
    · exact .single hp
    · exact .head hp (ih hrest hm)

/-- Without loops the paths behind a parent are the paths of the parent. -/
theorem ancestorPath_cons_cons_iff (hacyclic : T.Acyclic) {c p : Node} (hc : c.kind = .classNode)
    {rest : List Node} :
    T.AncestorPath c (c :: p :: rest) ↔ T.RealParent c p ∧ T.AncestorPath p (p :: rest) := by
  constructor
  · rintro ⟨-, hsteps, hnodup, hmaximal⟩
    obtain ⟨hp, hrest⟩ := List.isChain_cons_cons.1 hsteps
    refine ⟨hp, rfl, hrest, (List.nodup_cons.1 hnodup).2, fun last hlast q hq => ?_⟩
    have hmem : q ∈ c :: p :: rest := hmaximal last (by rwa [List.getLast?_cons_cons]) q hq
    rcases List.mem_cons.1 hmem with rfl | hmem
    · have hlast' : last ∈ p :: rest := List.mem_of_mem_getLast? hlast
      exact absurd ((above_of_mem_steps hsteps hlast').tail hq) (hacyclic q hc)
    · exact hmem
  · rintro ⟨hp, -, hsteps, hnodup, hmaximal⟩
    have hchain : (c :: p :: rest).IsChain T.RealParent := hsteps.cons_cons hp
    refine ⟨rfl, hchain, List.nodup_cons.2 ⟨fun hmem => ?_, hnodup⟩, fun last hlast q hq => ?_⟩
    · exact hacyclic c hc (above_of_mem_steps hchain hmem)
    · rw [List.getLast?_cons_cons] at hlast
      exact List.mem_cons_of_mem c (hmaximal last hlast q hq)

/-- A lineage of a child without its last title is one of a parent, unless there is no parent. -/
theorem mem_lineages_cases (hT : T.store.Unambiguous) (hacyclic : T.Acyclic) {c : Node}
    (hc : c.kind = .classNode) {lineages : List Lineage} (h : T.lineages c = .ok lineages)
    {l : Lineage} (hl : l ∈ lineages) : ∃ title, T.title c = .ok title ∧
      ((T.realParents c = [] ∧ l = [title]) ∨
        ∃ p l', T.RealParent c p ∧ l = l' ++ [title] ∧
          ∀ lineages', T.lineages p = .ok lineages' → l' ∈ lineages') := by
  obtain ⟨path, hpath, htitles⟩ := (mem_lineages_iff_ancestorPath hT h).1 hl
  obtain ⟨rest, rfl⟩ := List.head?_eq_some_iff.1 hpath.head_eq
  rw [List.reverse_cons] at htitles
  obtain ⟨above, own, habove, hown, rfl⟩ := mapM_append_eq_ok_iff.1 htitles
  obtain ⟨title, _, htitle, hnil, rfl⟩ := List.forall₂_cons_left_iff.1 (mapM_eq_ok_iff.1 hown)
  obtain rfl := List.forall₂_nil_left_iff.1 hnil
  refine ⟨title, htitle, ?_⟩
  cases rest with
  | nil =>
    refine Or.inl ⟨List.eq_nil_iff_forall_not_mem.2 fun p hp => ?_, ?_⟩
    · have hparent : T.RealParent c p := mem_realParents_iff.1 hp
      have hpc : p ∈ [c] := hpath.maximal c rfl p hparent
      exact hparent.term_ne (congrArg Node.term (List.mem_singleton.1 hpc))
    · obtain rfl := List.forall₂_nil_left_iff.1 (mapM_eq_ok_iff.1 habove)
      rfl
  | cons p rest =>
    obtain ⟨hp, hpath'⟩ := (ancestorPath_cons_cons_iff hacyclic hc).1 hpath
    refine Or.inr ⟨p, above, hp, rfl, fun lineages' h' => ?_⟩
    exact (mem_lineages_iff_ancestorPath hT h').2 ⟨p :: rest, hpath', habove⟩

/-- A lineage of a parent and the title of the child are a lineage of the child. -/
theorem mem_lineages_concat (hT : T.store.Unambiguous) (hacyclic : T.Acyclic) {c p : Node}
    (hc : c.kind = .classNode) (hp : T.RealParent c p) {lineages lineages' : List Lineage}
    (h : T.lineages c = .ok lineages) (h' : T.lineages p = .ok lineages') {l : Lineage}
    (hl : l ∈ lineages') {title : String} (htitle : T.title c = .ok title) :
    l ++ [title] ∈ lineages := by
  obtain ⟨path, hpath, htitles⟩ := (mem_lineages_iff_ancestorPath hT h').1 hl
  obtain ⟨rest, rfl⟩ := List.head?_eq_some_iff.1 hpath.head_eq
  refine (mem_lineages_iff_ancestorPath hT h).2 ⟨c :: p :: rest, ?_, mapM_title_cons htitle htitles⟩
  exact (ancestorPath_cons_cons_iff hacyclic hc).2 ⟨hp, hpath⟩

/-- The children of a class that has a fact are the classes with it as a parent. -/
theorem mem_children_iff (hT : T.store.Unambiguous) {p c : Node} (hp : p.kind = .classNode)
    (hsubject : T.store.hasSubject p.term) :
    c ∈ T.children p ↔ c.kind = .classNode ∧ T.RealParent c p := by
  obtain ⟨t, ht, hterm⟩ := Store.hasSubject_iff.1 hsubject
  have hresource : p.term.isResource := hterm ▸ hT.subject_isResource t ht
  obtain ⟨kind, term⟩ := c
  simp only [children, List.mem_map, List.mem_filter, mem_distinct, Store.mem_subjects,
    decide_eq_true_eq, Node.ofClass, Node.mk.injEq]
  constructor
  · rintro ⟨_, ⟨hdeclared, hne⟩, rfl, rfl⟩
    exact ⟨rfl, hp, hdeclared, Ne.symm hne, hresource, hsubject⟩
  · rintro ⟨rfl, hparent⟩
    exact ⟨term, ⟨hparent.declared, Ne.symm hparent.term_ne⟩, rfl, rfl⟩

end Taxonomy

/-! ## Members of indexes -/

/-- The addresses that the body of an index lists. -/
def memberUrls (body : Json) : List String :=
  (((body.get? "pot:member").bind Json.asArray?).getD []).filterMap (textAt "url")

/-- The identifiers that the body of an index lists. -/
def memberIds (body : Json) : List String :=
  (((body.get? "pot:member").bind Json.asArray?).getD []).filterMap (textAt "@id")

theorem texts_of_members (index : Index) {key : String} {text : IndexMember → String}
    (htext : ∀ entry : IndexMember, textAt key entry.toJson = some (text entry)) :
    (((index.toJson.get? "pot:member").bind Json.asArray?).getD []).filterMap (textAt key) =
      index.members.map text := by
  have hmembers : index.toJson.get? "pot:member" =
      some (.array (index.members.map IndexMember.toJson)) := by
    unfold Index.toJson
    cases index.owner <;> simp [Json.get?_ofEntries]
  rw [hmembers]
  show (index.members.map IndexMember.toJson).filterMap (textAt key) = _
  rw [List.filterMap_map, show textAt key ∘ IndexMember.toJson = some ∘ text from funext htext,
    ← List.filterMap_eq_map]

theorem memberUrls_toJson (index : Index) :
    memberUrls index.toJson = index.members.map IndexMember.url :=
  texts_of_members index fun _ => by
    simp [textAt, IndexMember.toJson, Json.get?_ofEntries, Json.asString?]

theorem memberIds_toJson (index : Index) :
    memberIds index.toJson = index.members.map IndexMember.id :=
  texts_of_members index fun _ => by
    simp [textAt, IndexMember.toJson, Json.get?_ofEntries, Json.asString?]

theorem id_toJson (index : Index) : textAt "@id" index.toJson = some index.id := by
  unfold textAt Index.toJson
  cases index.owner <;> simp [Json.get?_ofEntries, Json.asString?]

namespace Taxonomy

variable {T : Taxonomy} {settings : Settings}

theorem mem_memberUrls_rootDocument {url : String} :
    url ∈ memberUrls (T.rootDocument settings).body ↔ ∃ n ∈ T.classes,
      (∃ documents, T.classDocuments settings n = .ok documents) ∧ T.realParents n = [] ∧
        ∃ title, T.title n = .ok title ∧
          url = documentUrl settings.baseUrl .vocabulary [title] := by
  have hurls : memberUrls (T.rootDocument settings).body = (T.rootEntries settings).map
      fun entry => documentUrl settings.baseUrl .vocabulary [entry.2] := by
    unfold rootDocument
    rw [memberUrls_toJson]
    exact List.map_map
  rw [hurls, List.mem_map]
  constructor
  · rintro ⟨entry, hentry, rfl⟩
    obtain ⟨n, hn, hbuilt, hroot, -, htitle⟩ := mem_rootEntries_iff.1 hentry
    exact ⟨n, hn, hbuilt, hroot, entry.2, htitle, rfl⟩
  · rintro ⟨n, hn, hbuilt, hroot, title, htitle, rfl⟩
    exact ⟨(T.compactId n, title),
      mem_rootEntries_iff.2 ⟨n, hn, hbuilt, hroot, rfl, htitle⟩, rfl⟩

theorem mem_members_classIndex {n : Node} {l : Lineage} {entry : IndexMember} :
    entry ∈ (T.classIndex settings n l).members ↔ ∃ c ∈ T.children n,
      ∃ title, T.title c = .ok title ∧
        entry = ⟨T.compactId c, documentUrl settings.baseUrl .vocabulary (l ++ [title])⟩ := by
  show entry ∈ (T.children n).filterMap (T.indexMember settings l) ↔ _
  rw [List.mem_filterMap]
  refine exists_congr fun c => and_congr_right fun _ => ?_
  unfold indexMember
  constructor
  · intro h
    split at h
    · rename_i title htitle
      exact ⟨title, htitle, (Option.some.inj h).symm⟩
    · cases h
  · rintro ⟨title, htitle, rfl⟩
    rw [htitle]

theorem mem_memberUrls_classIndex {n : Node} {l : Lineage} {url : String} :
    url ∈ memberUrls (T.classIndex settings n l).toJson ↔ ∃ c ∈ T.children n,
      ∃ title, T.title c = .ok title ∧
        url = documentUrl settings.baseUrl .vocabulary (l ++ [title]) := by
  rw [memberUrls_toJson, List.mem_map]
  constructor
  · rintro ⟨entry, hentry, rfl⟩
    obtain ⟨c, hc, title, htitle, rfl⟩ := mem_members_classIndex.1 hentry
    exact ⟨c, hc, title, htitle, rfl⟩
  · rintro ⟨c, hc, title, htitle, rfl⟩
    exact ⟨_, mem_members_classIndex.2 ⟨c, hc, title, htitle, rfl⟩, rfl⟩

end Taxonomy

/-- One comes to an address from the root index: that index lists it, or one comes to the address of
a class whose index lists it. -/
inductive DocumentSet.Reaches (set : DocumentSet) (baseUrl : String) : String → Prop where
  | root {index : Document} {url : String} (built : index ∈ set.documents)
      (kind : index.kind = .index)
      (id : textAt "@id" index.body = some (documentUrl baseUrl .vocabulary []))
      (member : url ∈ memberUrls index.body) : Reaches set baseUrl url
  | step {index : Document} {owner url : String} (reached : Reaches set baseUrl owner)
      (built : index ∈ set.documents) (kind : index.kind = .index)
      (id : textAt "@id" index.body = some (owner ++ "/"))
      (member : url ∈ memberUrls index.body) : Reaches set baseUrl url

namespace Taxonomy

variable {T : Taxonomy} {settings : Settings}

/-! ## The same tree -/

/-- `l` is a lineage of the class `n`. -/
def IsLineage (T : Taxonomy) (n : Node) (l : Lineage) : Prop :=
  ∃ lineages, T.lineages n = .ok lineages ∧ l ∈ lineages

/-- What lies above or below a class is a class. -/
structure ClassesClosed (T : Taxonomy) : Prop where
  subject_mem : ∀ t ∈ T.store.triples, t.predicate = Rdfs.subClassOf →
    .ofClass t.subject ∈ T.classes
  parent_mem : ∀ n ∈ T.classes, ∀ p, T.RealParent n p → p ∈ T.classes

theorem IsLineage.vocabulary_mem (hbuilds : (T.build settings).failures = []) {n : Node}
    (hn : n ∈ T.classes) {l : Lineage} (hl : T.IsLineage n l) :
    ∃ v ∈ (T.build settings).documents, v.kind = .vocabulary ∧
      v.path = documentPath .vocabulary l := by
  obtain ⟨lineages, hlineages, hl⟩ := hl
  obtain ⟨lineages', bodies, id, hbuilt⟩ := exists_built_of_failures_eq_nil hbuilds hn
  obtain rfl : lineages = lineages' := Except.ok.inj (hlineages.symm.trans hbuilt.lineages_eq)
  obtain ⟨hv, hkind⟩ := vocabulary_mem_build_iff.2 ⟨n, hn, lineages, bodies, id, hbuilt, l, hl, rfl⟩
  exact ⟨_, hv, hkind, rfl⟩

/-- An index lists lineages only. -/
theorem exists_isLineage_of_mem_memberUrls (hT : T.store.Unambiguous) (hacyclic : T.Acyclic)
    (hclosed : T.ClassesClosed) (hbuilds : (T.build settings).failures = []) {index : Document}
    (hindex : index ∈ (T.build settings).documents) (hkind : index.kind = .index) {url : String}
    (hurl : url ∈ memberUrls index.body) :
    ∃ n ∈ T.classes, ∃ l, T.IsLineage n l ∧ url = documentUrl settings.baseUrl .vocabulary l := by
  rcases index_mem_build_iff.1 ⟨hindex, hkind⟩ with
    ⟨n, hn, lineages, bodies, id, hbuilt, l, hl, -, rfl⟩ | rfl
  · obtain ⟨c, hc, title, htitle, rfl⟩ := mem_memberUrls_classIndex.1 hurl
    obtain ⟨hkind, hsubject⟩ := kind_and_subject_of_mem_classes hn
    obtain ⟨hckind, hparent⟩ := (mem_children_iff hT hkind hsubject).1 hc
    have hcmem : c ∈ T.classes := by
      have hmem := hclosed.subject_mem _ hparent.declared (by rw [hckind]; rfl)
      rwa [Node.ofClass_term hckind] at hmem
    obtain ⟨lineages', bodies', id', hbuilt'⟩ := exists_built_of_failures_eq_nil hbuilds hcmem
    refine ⟨c, hcmem, l ++ [title], ⟨lineages', hbuilt'.lineages_eq, ?_⟩, rfl⟩
    exact mem_lineages_concat hT hacyclic hckind hparent hbuilt'.lineages_eq hbuilt.lineages_eq hl
      htitle
  · obtain ⟨n, hn, -, hroot, title, htitle, rfl⟩ := mem_memberUrls_rootDocument.1 hurl
    exact ⟨n, hn, [title], ⟨_, lineages_of_root hroot htitle, List.mem_singleton_self _⟩, rfl⟩

/-- The address of a lineage stands in the root index, or in the index of the lineage before it. -/
theorem IsLineage.mem_memberUrls (hT : T.store.Unambiguous) (hacyclic : T.Acyclic)
    (hclosed : T.ClassesClosed) (hbuilds : (T.build settings).failures = []) {n : Node}
    (hn : n ∈ T.classes) {l : Lineage} (hl : T.IsLineage n l) :
    ∃ index ∈ (T.build settings).documents, index.kind = .index ∧
      documentUrl settings.baseUrl .vocabulary l ∈ memberUrls index.body ∧
      (textAt "@id" index.body = some (documentUrl settings.baseUrl .vocabulary []) ∨
        ∃ p ∈ T.classes, ∃ l' title, T.IsLineage p l' ∧ l = l' ++ [title] ∧
          textAt "@id" index.body =
            some (documentUrl settings.baseUrl .vocabulary l' ++ "/")) := by
  obtain ⟨lineages, hlineages, hl⟩ := hl
  obtain ⟨hkind, hsubject⟩ := kind_and_subject_of_mem_classes hn
  obtain ⟨title, htitle, ⟨hroot, rfl⟩ | ⟨p, l', hp, rfl, hl'⟩⟩ :=
    mem_lineages_cases hT hacyclic hkind hlineages hl
  · obtain ⟨hdocument, hindex⟩ :=
      index_mem_build_iff.2 (Or.inr (Eq.refl (T.rootDocument settings)))
    refine ⟨T.rootDocument settings, hdocument, hindex, ?_, Or.inl (id_toJson _)⟩
    refine mem_memberUrls_rootDocument.2 ⟨n, hn, ?_, hroot, title, htitle, rfl⟩
    exact failures_build_eq_nil_iff.1 hbuilds n hn
  · have hpmem : p ∈ T.classes := hclosed.parent_mem n hn p hp
    obtain ⟨hpkind, hpsubject⟩ := kind_and_subject_of_mem_classes hpmem
    obtain ⟨lineages', bodies, id, hbuilt⟩ := exists_built_of_failures_eq_nil hbuilds hpmem
    have hmem : l' ∈ lineages' := hl' lineages' hbuilt.lineages_eq
    have hchild : n ∈ T.children p := (mem_children_iff hT hpkind hpsubject).2 ⟨hkind, hp⟩
    have hchildren : T.hasChildren p := by
      rw [hasChildren, Bool.not_eq_true', List.isEmpty_eq_false_iff]
      exact List.ne_nil_of_mem hchild
    obtain ⟨hdocument, hindex⟩ := index_mem_build_iff.2
      (Or.inl ⟨p, hpmem, lineages', bodies, id, hbuilt, l', hmem, hchildren, rfl⟩)
    have hlineage : T.IsLineage p l' := ⟨lineages', hbuilt.lineages_eq, hmem⟩
    refine ⟨_, hdocument, hindex, ?_, Or.inr ⟨p, hpmem, l', title, hlineage, rfl, id_toJson _⟩⟩
    exact mem_memberUrls_classIndex.2 ⟨n, hchild, title, htitle, rfl⟩

/-- One comes to every lineage, through those before it. -/
theorem IsLineage.reaches (hT : T.store.Unambiguous) (hacyclic : T.Acyclic)
    (hclosed : T.ClassesClosed) (hbuilds : (T.build settings).failures = []) {n : Node}
    (hn : n ∈ T.classes) {l : Lineage} (hl : T.IsLineage n l) :
    (T.build settings).Reaches settings.baseUrl (documentUrl settings.baseUrl .vocabulary l) := by
  induction l using List.reverseRecOn generalizing n with
  | nil =>
    obtain ⟨index, hindex, hkind, hurl, hid | ⟨_, -, l', title, -, hnil, -⟩⟩ :=
      hl.mem_memberUrls hT hacyclic hclosed hbuilds hn
    · exact .root hindex hkind hid hurl
    · simp at hnil
  | append_singleton l last ih =>
    obtain ⟨index, hindex, hkind, hurl, hid | ⟨p, hp, l', title, hl', heq, hid⟩⟩ :=
      hl.mem_memberUrls hT hacyclic hclosed hbuilds hn
    · exact .root hindex hkind hid hurl
    · obtain ⟨rfl, -⟩ := List.append_inj' heq rfl
      exact .step (ih hp hl') hindex hkind hid hurl

/-- **The indexes and the lineages describe the same tree**: in a graph without loops whose build
reports no failure, the addresses that the indexes list are those of the lineages of all classes.
Each has its vocabulary, and one comes to every vocabulary from the root index. -/
theorem indexes_list_lineages (T : Taxonomy) (settings : Settings) (hT : T.store.Unambiguous)
    (hacyclic : T.Acyclic) (hclosed : T.ClassesClosed)
    (hbuilds : (T.build settings).failures = []) :
    (∀ url, (∃ index ∈ (T.build settings).documents,
        index.kind = .index ∧ url ∈ memberUrls index.body) ↔
      ∃ n ∈ T.classes, ∃ l, T.IsLineage n l ∧
        url = documentUrl settings.baseUrl .vocabulary l) ∧
    (∀ index ∈ (T.build settings).documents, index.kind = .index →
      ∀ url ∈ memberUrls index.body, ∃ l, url = documentUrl settings.baseUrl .vocabulary l ∧
        ∃ v ∈ (T.build settings).documents, v.kind = .vocabulary ∧
          v.path = documentPath .vocabulary l) ∧
    ∀ v ∈ (T.build settings).documents, v.kind = .vocabulary →
      ∃ n ∈ T.classes, ∃ l, T.IsLineage n l ∧ v.path = documentPath .vocabulary l ∧
        (T.build settings).Reaches settings.baseUrl
          (documentUrl settings.baseUrl .vocabulary l) := by
  refine ⟨fun url => ⟨?_, ?_⟩, fun index hindex hkind url hurl => ?_, fun v hv hkind => ?_⟩
  · rintro ⟨index, hindex, hkind, hurl⟩
    exact exists_isLineage_of_mem_memberUrls hT hacyclic hclosed hbuilds hindex hkind hurl
  · rintro ⟨n, hn, l, hl, rfl⟩
    obtain ⟨index, hindex, hkind, hurl, -⟩ := hl.mem_memberUrls hT hacyclic hclosed hbuilds hn
    exact ⟨index, hindex, hkind, hurl⟩
  · obtain ⟨n, hn, l, hl, rfl⟩ :=
      exists_isLineage_of_mem_memberUrls hT hacyclic hclosed hbuilds hindex hkind hurl
    exact ⟨l, rfl, hl.vocabulary_mem hbuilds hn⟩
  · obtain ⟨n, hn, lineages, bodies, id, hbuilt, l, hl, rfl⟩ :=
      vocabulary_mem_build_iff.1 ⟨hv, hkind⟩
    have hlineage : T.IsLineage n l := ⟨lineages, hbuilt.lineages_eq, hl⟩
    exact ⟨n, hn, l, hlineage, rfl, hlineage.reaches hT hacyclic hclosed hbuilds hn⟩

/-- Edges that lead down a rank make no loop. -/
theorem acyclic_of_rank (rank : Term → Nat)
    (h : ∀ t ∈ T.store.triples, t.predicate = Rdfs.subClassOf → rank t.object < rank t.subject) :
    T.Acyclic := by
  intro n hn hloop
  have hrank : ∀ m, T.Above n m → rank m.term < rank n.term := by
    intro m hm
    induction hm with
    | single hp => exact h _ hp.declared (by rw [hn]; rfl)
    | @tail p q hpath hp ih =>
      have hkind : p.kind = .classNode := (Above.kind_eq hpath).trans hn
      have hlt : rank q.term < rank p.term := h _ hp.declared (by rw [hkind]; rfl)
      exact Nat.lt_trans hlt ih
  exact Nat.lt_irrefl _ (hrank n hloop)

/-- Two ways lead from `House` up to `Asset`. -/
def houseWithTwoParents : Taxonomy where
  store := .ofList
    [⟨.iri "http://x/o#Asset", Rdf.type, .iri Rdfs.classType⟩,
     ⟨.iri "http://x/o#Building", Rdf.type, .iri Rdfs.classType⟩,
     ⟨.iri "http://x/o#Shelter", Rdf.type, .iri Rdfs.classType⟩,
     ⟨.iri "http://x/o#House", Rdf.type, .iri Rdfs.classType⟩,
     ⟨.iri "http://x/o#Building", Rdfs.subClassOf, .iri "http://x/o#Asset"⟩,
     ⟨.iri "http://x/o#Shelter", Rdfs.subClassOf, .iri "http://x/o#Asset"⟩,
     ⟨.iri "http://x/o#House", Rdfs.subClassOf, .iri "http://x/o#Building"⟩,
     ⟨.iri "http://x/o#House", Rdfs.subClassOf, .iri "http://x/o#Shelter"⟩]
  namespaces := .empty

theorem ancestorPath_houseWithTwoParents :
    houseWithTwoParents.AncestorPath (.ofClass (.iri "http://x/o#House"))
      [.ofClass (.iri "http://x/o#House"), .ofClass (.iri "http://x/o#Shelter"),
        .ofClass (.iri "http://x/o#Asset")] := by
  have hroot : houseWithTwoParents.realParents (.ofClass (.iri "http://x/o#Asset")) = [] := by
    decide +kernel
  refine ⟨rfl, ?_, by decide, ?_⟩
  · refine .cons_cons (mem_realParents_iff.1 (by decide +kernel)) ?_
    exact .cons_cons (mem_realParents_iff.1 (by decide)) (.singleton _)
  · intro last hlast p hp
    obtain rfl : .ofClass (.iri "http://x/o#Asset") = last := Option.some.inj hlast
    rw [← mem_realParents_iff, hroot] at hp
    cases hp

/-- Some index lists the address of `House` below `Shelter`. -/
theorem house_below_shelter_listed :
    houseWithTwoParents.store.Unambiguous ∧ houseWithTwoParents.Acyclic ∧
      houseWithTwoParents.ClassesClosed ∧ (houseWithTwoParents.build {}).failures = [] ∧
      ∃ index ∈ (houseWithTwoParents.build {}).documents, index.kind = .index ∧
        "https://standards.oftrust.net/v1/Vocabulary/Asset/Shelter/House" ∈
          memberUrls index.body := by
  let rank : Term → Nat := fun t =>
    if t = .iri "http://x/o#House" then 2 else if t = .iri "http://x/o#Asset" then 0 else 1
  have hT : houseWithTwoParents.store.Unambiguous := by decide +kernel
  have hacyclic : houseWithTwoParents.Acyclic := acyclic_of_rank rank (by decide)
  have hparents : ∀ n ∈ houseWithTwoParents.classes, ∀ p ∈ houseWithTwoParents.realParents n,
      p ∈ houseWithTwoParents.classes := by decide
  have hclosed : houseWithTwoParents.ClassesClosed :=
    ⟨by decide, fun n hn p hp => hparents n hn p (mem_realParents_iff.2 hp)⟩
  have hbuilds : (houseWithTwoParents.build {}).failures = [] :=
    failures_build_eq_nil_of_titled hparents (by decide +kernel) (by decide +kernel)
  have htree := indexes_list_lineages houseWithTwoParents {} hT hacyclic hclosed hbuilds
  refine ⟨hT, hacyclic, hclosed, hbuilds, (htree.1 _).2 ?_⟩
  have hhouse : .ofClass (.iri "http://x/o#House") ∈ houseWithTwoParents.classes := by
    decide +kernel
  obtain ⟨lineages, bodies, id, hbuilt⟩ := exists_built_of_failures_eq_nil hbuilds hhouse
  have hl : ["Asset", "Shelter", "House"] ∈ lineages :=
    (mem_lineages_iff_ancestorPath hT hbuilt.lineages_eq).2
      ⟨_, ancestorPath_houseWithTwoParents, by decide +kernel⟩
  exact ⟨_, hhouse, _, ⟨lineages, hbuilt.lineages_eq, hl⟩, by decide⟩

end Taxonomy

end TaxonomyPress
