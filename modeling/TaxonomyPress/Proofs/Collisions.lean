import TaxonomyPress.Proofs.Containment

/-!
# Documents that do not overwrite one another

The files of two documents are apart if they are different and neither is a directory on the way to
the other. Titles are cut from the names of classes, so nothing keeps two classes from having one
lineage, and a class titled `index` from having the path of an index.

* `UnixPath.Apart`, `FilesApart` : paths that are apart, and lineages whose documents are;
* `titlesIn` : the lineages of the documents of a section; those of the vocabularies and indexes
  decide for contexts and class definitions too (`Taxonomy.titlesIn_sublist`);
* `filesApart_iff_ne` : different lineages of plain titles are apart;
* `isName_of_mem_components_documentPath`, `size_documentPath_le` : the names and the path of a
  document are no longer than its titles let them be;
* `Taxonomy.documents_apart` : when the documents of a build are apart, and what a run then leaves;
* `Taxonomy.same_title_same_path` : two namespaces with classes of one title.
-/

namespace TaxonomyPress

/-! ## Paths that are apart -/

/-- The paths lead to different places, and neither leads through the other. -/
def UnixPath.Apart (p q : UnixPath) : Prop :=
  ¬ p.components <+: q.components ∧ ¬ q.components <+: p.components

/-- The documents of two lineages are apart in their section. -/
def FilesApart (l l' : Lineage) : Prop :=
  ¬ fileNames l <+: fileNames l' ∧ ¬ fileNames l' <+: fileNames l

/-- Documents of different sections are always apart. -/
theorem apart_documentPath_iff {area area' : Section} {l l' : Lineage} (hl : l ≠ []) (hl' : l' ≠ [])
    (hsafe : SafeTitles l) (hsafe' : SafeTitles l') :
    (documentPath area l).Apart (documentPath area' l') ↔ (area = area' → FilesApart l l') := by
  unfold UnixPath.Apart FilesApart
  rw [components_documentPath area hl hsafe.relative,
    components_documentPath area' hl' hsafe'.relative, List.cons_prefix_cons, List.cons_prefix_cons,
    Section.directory_inj, Section.directory_inj]
  constructor
  · rintro ⟨h, h'⟩ rfl
    exact ⟨fun hbegins => h ⟨rfl, hbegins⟩, fun hbegins => h' ⟨rfl, hbegins⟩⟩
  · intro h
    exact ⟨fun ⟨harea, hbegins⟩ => (h harea).1 hbegins,
      fun ⟨harea, hbegins⟩ => (h harea.symm).2 hbegins⟩

/-! ## Plain titles -/

/-- A title that is one name in a path, and not that of a document. -/
structure PlainTitle (title : String) : Prop where
  slash : '/' ∉ title.toList
  empty : title ≠ ""
  dot : title ≠ "."
  ending : ∀ stem, title ≠ stem ++ ".jsonld"

theorem ne_append_ending_of_length {title : String} (h : title.toList.length < 7) (stem : String) :
    title ≠ stem ++ ".jsonld" := by
  rintro rfl
  rw [String.toList_append, List.length_append] at h
  exact absurd h (Nat.not_lt.2 (Nat.le_add_left 7 _))

theorem PlainTitle.of_dot_notMem {title : String} (hslash : '/' ∉ title.toList)
    (hempty : title ≠ "") (hdot : '.' ∉ title.toList) : PlainTitle title := by
  refine ⟨hslash, hempty, ?_, ?_⟩
  · rintro rfl
    exact hdot (List.mem_singleton_self _)
  · rintro stem rfl
    rw [String.toList_append] at hdot
    exact hdot (List.mem_append_right _ List.mem_cons_self)

theorem PlainTitle.components_eq {title : String} (h : PlainTitle title) :
    UnixPath.components ⟨title⟩ = [title] := by
  have hnames := namesOf_of_notMem h.slash (fun heq => h.empty (String.toList_inj.1 heq))
    fun heq => h.dot (String.toList_inj.1 heq)
  rwa [String.ofList_toList] at hnames

theorem PlainTitle.components_append_ending {title : String} (h : PlainTitle title) :
    UnixPath.components ⟨title ++ ".jsonld"⟩ = [title ++ ".jsonld"] := by
  have hslash : '/' ∉ (title ++ ".jsonld").toList := by
    rw [String.toList_append, List.mem_append, not_or]
    exact ⟨h.slash, by decide⟩
  have hempty := ne_append_ending_of_length (by decide : "".toList.length < 7) title
  have hdot := ne_append_ending_of_length (by decide : ".".toList.length < 7) title
  have hnames := namesOf_of_notMem hslash (fun heq => hempty (String.toList_inj.1 heq).symm)
    fun heq => hdot (String.toList_inj.1 heq).symm
  rwa [String.ofList_toList] at hnames

theorem fileNames_of_plain {l : Lineage} {title : String} (h : ∀ t ∈ l ++ [title], PlainTitle t) :
    fileNames (l ++ [title]) = l ++ [title ++ ".jsonld"] := by
  have htitle : PlainTitle title := h title (List.mem_append_right l (List.mem_singleton_self _))
  rw [fileNames_concat, htitle.components_append_ending]
  congr 1
  have hl : ∀ t ∈ l, UnixPath.components ⟨t⟩ = [t] := fun t ht =>
    (h t (List.mem_append_left _ ht)).components_eq
  rw [List.flatMap_congr hl, List.flatMap_singleton']

theorem FileTree.isName_of_append {name ending : String} (h : isName (name ++ ending) = true) :
    isName name = true := by
  unfold isName at h ⊢
  rw [Bool.and_eq_true, decide_eq_true_eq, String.utf8ByteSize_append, Bool.not_eq_true',
    String.toList_append, ← Bool.not_eq_true, List.contains_iff_mem, List.mem_append, not_or] at h
  obtain ⟨hsize, hnul, -⟩ := h
  rw [Bool.and_eq_true, decide_eq_true_eq, Bool.not_eq_true', ← Bool.not_eq_true,
    List.contains_iff_mem]
  exact ⟨Nat.le_trans (Nat.le_add_right _ _) hsize, hnul⟩

/-- The names on the way to a document fit if its titles do. -/
theorem isName_of_mem_components_documentPath (area : Section) {l : Lineage} (hl : l ≠ [])
    (hplain : ∀ t ∈ l, PlainTitle t) (hnames : ∀ t ∈ l, FileTree.isName (t ++ ".jsonld") = true) :
    ∀ name ∈ (documentPath area l).components, FileTree.isName name = true := by
  have hrelative := any_startsWith_slash_eq_false fun t ht => (hplain t ht).slash
  obtain ⟨front, title, rfl⟩ := (List.eq_nil_or_concat' l).resolve_left hl
  rw [components_documentPath area hl hrelative, fileNames_of_plain hplain]
  intro name hname
  rcases List.mem_cons.1 hname with rfl | hname
  · cases area <;> decide
  · rcases List.mem_append.1 hname with hfront | hlast
    · exact FileTree.isName_of_append (hnames name (List.mem_append_left _ hfront))
    · rw [List.mem_singleton.1 hlast]
      exact hnames title (List.mem_append_right _ (List.mem_singleton_self _))

/-- Each title takes a path at most one name and one separator further. -/
theorem size_documentPath_le (area : Section) {l : Lineage}
    (hnames : ∀ t ∈ l, FileTree.isName (t ++ ".jsonld") = true) :
    (documentPath area l).text.utf8ByteSize ≤ area.directory.utf8ByteSize + l.length * 256 := by
  have hsize : ∀ t ∈ l, (t ++ ".jsonld").utf8ByteSize ≤ 255 := by
    intro t ht
    have hname := hnames t ht
    unfold FileTree.isName at hname
    rw [Bool.and_eq_true, decide_eq_true_eq] at hname
    exact hname.1
  rcases List.eq_nil_or_concat' l with rfl | ⟨front, title, rfl⟩
  · exact Nat.le_add_right _ _
  · have hfront : ∀ t ∈ front, t.utf8ByteSize ≤ 255 := by
      intro t ht
      have ht' := hsize t (List.mem_append_left _ ht)
      rw [String.utf8ByteSize_append] at ht'
      omega
    have hlast := hsize title (List.mem_append_right _ (List.mem_singleton_self _))
    have hpush := UnixPath.size_push_le (front.foldl UnixPath.push ⟨area.directory⟩)
      (title ++ ".jsonld")
    have hway := UnixPath.size_foldl_push_le hfront ⟨area.directory⟩
    dsimp only at hway
    rw [documentPath_concat, List.length_append, List.length_singleton]
    omega

/-- The document of one lineage leads to that of another only if it is the same. -/
theorem eq_of_prefix_fileNames {l l' : Lineage} (hl : l ≠ []) (hl' : l' ≠ [])
    (h : ∀ t ∈ l, PlainTitle t) (h' : ∀ t ∈ l', PlainTitle t)
    (hbegins : fileNames l <+: fileNames l') : l = l' := by
  obtain ⟨front, title, rfl⟩ := (List.eq_nil_or_concat' l).resolve_left hl
  obtain ⟨front', title', rfl⟩ := (List.eq_nil_or_concat' l').resolve_left hl'
  rw [fileNames_of_plain h, fileNames_of_plain h', List.prefix_concat_iff] at hbegins
  rcases hbegins with heq | hbegins
  · obtain ⟨rfl, hlast⟩ := List.append_inj' heq rfl
    have htitle : title = title' := by
      have hchars := congrArg String.toList (List.cons.inj hlast).1
      rw [String.toList_append, String.toList_append] at hchars
      exact String.toList_inj.1 (List.append_cancel_right hchars)
    rw [htitle]
  · -- some title on the way would be the name of a document
    have hmem : title ++ ".jsonld" ∈ front' := hbegins.subset (by simp)
    exact absurd rfl ((h' _ (List.mem_append_left _ hmem)).ending title)

theorem filesApart_iff_ne {l l' : Lineage} (hl : l ≠ []) (hl' : l' ≠ [])
    (h : ∀ t ∈ l, PlainTitle t) (h' : ∀ t ∈ l', PlainTitle t) : FilesApart l l' ↔ l ≠ l' := by
  constructor
  · rintro hapart rfl
    exact hapart.1 (List.prefix_refl _)
  · intro hne
    exact ⟨fun hbegins => hne (eq_of_prefix_fileNames hl hl' h h' hbegins),
      fun hbegins => hne (eq_of_prefix_fileNames hl' hl h' h hbegins).symm⟩

/-! ## Sections -/

/-- The lineages of the documents of one section. -/
def titlesIn (area : Section) (addresses : List (Section × Lineage)) : List Lineage :=
  (addresses.filter (·.1 = area)).map (·.2)

theorem mem_titlesIn {area : Section} {addresses : List (Section × Lineage)} {l : Lineage} :
    l ∈ titlesIn area addresses ↔ (area, l) ∈ addresses := by
  unfold titlesIn
  rw [List.mem_map]
  constructor
  · rintro ⟨⟨area', l'⟩, ha, rfl⟩
    obtain ⟨hmem, harea⟩ := List.mem_filter.1 ha
    obtain rfl : area' = area := by simpa using harea
    exact hmem
  · intro h
    exact ⟨(area, l), List.mem_filter.2 ⟨h, by simp⟩, rfl⟩

theorem titlesIn_append (area : Section) (front back : List (Section × Lineage)) :
    titlesIn area (front ++ back) = titlesIn area front ++ titlesIn area back := by
  unfold titlesIn
  rw [List.filter_append, List.map_append]

theorem titlesIn_flatMap {α : Type} (area : Section) (f : α → List (Section × Lineage))
    (xs : List α) : titlesIn area (xs.flatMap f) = xs.flatMap fun x => titlesIn area (f x) := by
  induction xs with
  | nil => rfl
  | cons x xs ih => rw [List.flatMap_cons, List.flatMap_cons, titlesIn_append, ih]

/-- What holds of any two of one section holds in each section. -/
theorem pairwise_iff_titlesIn {R : Lineage → Lineage → Prop}
    {addresses : List (Section × Lineage)} :
    addresses.Pairwise (fun a b => a.1 = b.1 → R a.2 b.2) ↔
      ∀ area, (titlesIn area addresses).Pairwise R := by
  induction addresses with
  | nil => exact ⟨fun _ _ => .nil, fun _ => .nil⟩
  | cons first rest ih =>
    obtain ⟨area, l⟩ := first
    have hcons : ∀ area', titlesIn area' ((area, l) :: rest) =
        if area = area' then l :: titlesIn area' rest else titlesIn area' rest := by
      intro area'
      by_cases harea : area = area' <;> simp [titlesIn, harea]
    rw [List.pairwise_cons, ih]
    constructor
    · rintro ⟨hfirst, hrest⟩ area'
      rw [hcons]
      split
      · rename_i harea
        subst harea
        exact List.pairwise_cons.2
          ⟨fun l' hl' => hfirst _ (mem_titlesIn.1 hl') rfl, hrest area⟩
      · exact hrest area'
    · intro h
      refine ⟨?_, fun area' => ?_⟩
      · rintro ⟨area', l'⟩ hmem rfl
        have hfirst := h area
        rw [hcons, if_pos rfl] at hfirst
        exact (List.pairwise_cons.1 hfirst).1 l' (mem_titlesIn.2 hmem)
      · have hall := h area'
        rw [hcons] at hall
        split at hall
        · exact (List.pairwise_cons.1 hall).2
        · exact hall

theorem sublist_flatMap {α β : Type} {f g : α → List β} {xs : List α}
    (h : ∀ x ∈ xs, (f x).Sublist (g x)) : (xs.flatMap f).Sublist (xs.flatMap g) := by
  induction xs with
  | nil => exact List.Sublist.refl _
  | cons x xs ih =>
    rw [List.flatMap_cons, List.flatMap_cons]
    exact (h x List.mem_cons_self).append (ih fun x hx => h x (List.mem_cons_of_mem _ hx))

namespace Taxonomy

variable {T : Taxonomy} {settings : Settings}

/-- Contexts and class definitions stand beside vocabularies, and fragments on their own. -/
theorem titlesIn_lineageAddresses_sublist {area : Section} (n : Node) (bodies : ClassBodies)
    (l : Lineage) : (titlesIn area (T.lineageAddresses n bodies l)).Sublist
      (titlesIn .vocabulary (T.lineageAddresses n bodies l)) := by
  unfold lineageAddresses
  cases bodies.identity <;> cases bodies.definition <;> split <;> cases area <;>
    simp [titlesIn]

theorem titlesIn_sublist {area : Section} (harea : area ≠ .ontology) :
    (titlesIn area (T.buildAddresses settings)).Sublist
      (titlesIn .vocabulary (T.buildAddresses settings)) := by
  unfold buildAddresses
  rw [titlesIn_append, titlesIn_append, titlesIn_flatMap, titlesIn_flatMap]
  refine (sublist_flatMap fun n _ => ?_).append ?_
  · unfold addresses
    split
    · rename_i lineages bodies id _ _ _
      rw [titlesIn_append, titlesIn_append, titlesIn_flatMap, titlesIn_flatMap]
      refine (sublist_flatMap fun l _ => titlesIn_lineageAddresses_sublist n bodies l).append ?_
      rw [show titlesIn area [(.ontology, canonicalLineage id)] = [] by
        simp [titlesIn, harea.symm]]
      exact List.nil_sublist _
    · exact List.Sublist.refl _
  · cases area <;> simp [titlesIn]

/-- The vocabularies and indexes among themselves, and the fragments among themselves, decide
whether all documents are apart. -/
theorem pairwise_apart_iff (hsafe : ∀ d ∈ (T.build settings).documents, d.path.isSafe = true) :
    (T.build settings).documents.Pairwise (fun a b => a.path.Apart b.path) ↔
      (titlesIn .vocabulary (T.buildAddresses settings)).Pairwise FilesApart ∧
        (titlesIn .ontology (T.buildAddresses settings)).Pairwise FilesApart := by
  have htitles := isSafe_documents_iff_safeTitles.1 hsafe
  rw [← List.pairwise_map (f := Document.path) (R := UnixPath.Apart), map_path_documents,
    List.pairwise_map, List.Pairwise.iff_of_mem fun ha hb => apart_documentPath_iff
      (ne_nil_of_mem_buildAddresses ha) (ne_nil_of_mem_buildAddresses hb) (htitles _ ha)
      (htitles _ hb), pairwise_iff_titlesIn]
  constructor
  · exact fun h => ⟨h .vocabulary, h .ontology⟩
  · rintro ⟨hvocabulary, hontology⟩ area
    by_cases harea : area = .ontology
    · rw [harea]
      exact hontology
    · exact hvocabulary.sublist (titlesIn_sublist harea)

/-- Plain titles keep documents apart wherever their lineages differ. -/
theorem pairwise_apart_iff_nodup
    (hsafe : ∀ d ∈ (T.build settings).documents, d.path.isSafe = true)
    (hplain : ∀ a ∈ T.buildAddresses settings, ∀ t ∈ a.2, PlainTitle t) :
    (T.build settings).documents.Pairwise (fun a b => a.path.Apart b.path) ↔
      (titlesIn .vocabulary (T.buildAddresses settings)).Nodup ∧
        (titlesIn .ontology (T.buildAddresses settings)).Nodup := by
  have hne : ∀ area, (titlesIn area (T.buildAddresses settings)).Pairwise FilesApart ↔
      (titlesIn area (T.buildAddresses settings)).Nodup := by
    intro area
    refine List.Pairwise.iff_of_mem fun hl hl' => ?_
    have ha := mem_titlesIn.1 hl
    have ha' := mem_titlesIn.1 hl'
    exact filesApart_iff_ne (ne_nil_of_mem_buildAddresses ha) (ne_nil_of_mem_buildAddresses ha')
      (hplain _ ha) (hplain _ ha')
  rw [pairwise_apart_iff hsafe, hne, hne]

end Taxonomy

/-! ## Written documents -/

namespace FileTree

variable {tree after : FileTree} {out : UnixPath} {documents : List Document}
  {print : Json → String}

/-- **Every document has its file**: those that are apart, written below an empty directory. -/
theorem filesBelow_writeDocuments (hsafe : ∀ d ∈ documents, d.path.isSafe = true)
    (hnames : ∀ d ∈ documents, d.path.components ≠ [])
    (hapart : documents.Pairwise fun a b => a.path.Apart b.path)
    (hempty : tree.below (placeOf out) = []) {count : Nat}
    (h : tree.writeDocuments out documents print = (after, .ok count)) :
    after.filesBelow (placeOf out) =
        documents.map (fun d => (d.path.components, documentText print d.body)) ∧
      count = documents.length ∧
      ∀ d ∈ documents, after.read? (out.join d.path) = some (documentText print d.body) := by
  obtain ⟨hwrite, hcount⟩ := writeDocuments_eq_ok h
  have hplaces : (documentTexts out documents print).Pairwise fun a b => placeOf a.1 ≠ placeOf b.1 :=
    List.pairwise_map.2 (hapart.imp_of_mem fun ha hb hab =>
      placeOf_join_ne (hsafe _ ha) (hsafe _ hb) hab.1)
  have hnew : ∀ entry ∈ documentTexts out documents print, tree.entry? (placeOf entry.1) = none := by
    intro entry hentry
    obtain ⟨d, hd, rfl⟩ := List.mem_map.1 hentry
    rw [placeOf_join (hsafe d hd)]
    exact entry?_of_below_eq_nil hempty (hsafe d hd) (hnames d hd) (List.prefix_refl _)
  have hold : tree.files.filterMap (fileFrom (placeOf out)) = [] := by
    rw [← filesBelow_eq, filesBelow, hempty]
    rfl
  refine ⟨?_, hcount, fun d hd => ?_⟩
  · rw [filesBelow_eq, files_writeTexts hwrite hplaces hnew, List.filterMap_append, hold,
      List.nil_append, documentTexts, List.map_map, List.filterMap_map, ← List.filterMap_eq_map]
    refine List.filterMap_congr fun d hd => ?_
    show fileFrom (placeOf out) (placeOf (out.join d.path), documentText print d.body) = _
    exact fileFrom_join (hsafe d hd) (hnames d hd) _
  · have hentry : (out.join d.path, documentText print d.body) ∈ documentTexts out documents print :=
      List.mem_map.2 ⟨d, hd, rfl⟩
    exact read?_writeTexts hwrite hplaces (out.join d.path, documentText print d.body) hentry

/-- **Documents can be written** below an empty directory if they are apart and not too long. -/
theorem exists_writeDocuments (print : Json → String) (hroom : tree.Room out)
    (hsafe : ∀ d ∈ documents, d.path.isSafe = true)
    (hnames : ∀ d ∈ documents, d.path.components ≠ [])
    (hapart : documents.Pairwise fun a b => a.path.Apart b.path)
    (hends : ∀ d ∈ documents, endsInName (out.join d.path) = true)
    (hfit : ∀ d ∈ documents, isShort (out.join d.path) = true ∧
      ∀ name ∈ d.path.components, isName name = true) :
    ∃ after, tree.writeDocuments out documents print = (after, .ok documents.length) := by
  have hwritable : ∀ entry ∈ documentTexts out documents print, tree.Writable entry.1 := by
    intro entry hentry
    obtain ⟨d, hd, rfl⟩ := List.mem_map.1 hentry
    exact hroom.writable (hsafe d hd) (hnames d hd) (hends d hd) (hfit d hd).1 (hfit d hd).2
  have hplaces : (documentTexts out documents print).Pairwise fun a b => PlacesApart a.1 b.1 :=
    List.pairwise_map.2 (hapart.imp_of_mem fun ha hb hab => placesApart_join hroom.outside
      (hsafe _ ha) (hsafe _ hb) (hnames _ ha) (hnames _ hb) hab.1 hab.2)
  obtain ⟨after, hafter⟩ := exists_writeTexts hwritable hplaces
  exact ⟨after, writeDocuments_eq hafter⟩

/-- The ending of a text is that of its last piece. -/
theorem getLast?_segments_of_ending {text front : String} (h : text = front ++ ".jsonld") :
    ∃ last, (Text.segments '/' text).getLast? = some (last ++ ".jsonld") := by
  have hending : '/' ∉ ".jsonld".toList := by decide
  obtain ⟨pieces, last, -, hall⟩ := segments_append_of_notMem front.toList hending
  refine ⟨String.ofList last, ?_⟩
  unfold Text.segments
  rw [h, String.toList_append, hall, List.map_append, List.map_singleton, List.getLast?_concat,
    String.ofList_append, String.ofList_toList]

/-- So the last piece is a name. -/
theorem endsInName_of_ending {path : UnixPath} {front : String}
    (h : path.text = front ++ ".jsonld") : endsInName path = true := by
  obtain ⟨last, hlast⟩ := getLast?_segments_of_ending h
  have hne : ∀ s : String, s.toList.length < 7 → last ++ ".jsonld" ≠ s :=
    fun s hs => (ne_append_ending_of_length hs last).symm
  unfold endsInName
  rw [hlast]
  show (decide (_ ≠ "") && decide (_ ≠ ".") && decide (_ ≠ "..")) = true
  simp only [Bool.and_eq_true, decide_eq_true_eq]
  exact ⟨⟨hne "" (by decide), hne "." (by decide)⟩, hne ".." (by decide)⟩

end FileTree

namespace Taxonomy

variable {T : Taxonomy} {settings : Settings} {print : Json → String}

theorem exists_text_of_mem_documents {d : Document} (hd : d ∈ (T.build settings).documents) :
    ∃ front, d.path.text = front ++ ".jsonld" := by
  obtain ⟨a, ha, hpath⟩ := exists_address_of_mem_documents hd
  rw [← hpath]
  exact exists_text_documentPath a.1 (ne_nil_of_mem_buildAddresses ha)

theorem exists_text_join (out : UnixPath) {d : Document} (hd : d ∈ (T.build settings).documents) :
    ∃ front, (out.join d.path).text = front ++ ".jsonld" := by
  obtain ⟨front, hfront⟩ := exists_text_of_mem_documents hd
  obtain ⟨front', hfront'⟩ := UnixPath.exists_text_push out d.path.text
  refine ⟨front' ++ front, ?_⟩
  rw [String.append_assoc, ← hfront]
  exact hfront'

/-- What a run reports that writes `documentsWritten` documents. -/
def reportOf (T : Taxonomy) (settings : Settings) (documentsWritten : Nat) : GenerationReport where
  classCount := T.classes.length
  propertyCount := T.properties.length
  vocabularyCount := (T.build settings).count .vocabulary
  identityCount := (T.build settings).count .identity
  definitionCount := (T.build settings).count .definition
  indexCount := (T.build settings).count .index
  ontologyCount := (T.build settings).count .ontology
  documentsWritten
  failures := (T.build settings).failures

theorem generate_eq {tree after : FileTree} {out : UnixPath} {outcome : Except FileError Nat}
    (h : tree.writeDocuments out (T.build settings).documents print = (after, outcome)) :
    T.generate settings tree out print = (after, outcome.map (T.reportOf settings)) := by
  unfold generate
  dsimp only
  rw [h]
  rfl

/-- A run into an empty directory that comes to its end leaves what was built there. -/
theorem filesBelow_generate {tree written : FileTree} {out : UnixPath} {report : GenerationReport}
    (hsafe : ∀ d ∈ (T.build settings).documents, d.path.isSafe = true)
    (hapart : (T.build settings).documents.Pairwise fun a b => a.path.Apart b.path)
    (hempty : tree.below (FileTree.placeOf out) = [])
    (h : T.generate settings tree out print = (written, .ok report)) :
    written.filesBelow (FileTree.placeOf out) = (T.build settings).documents.map
        (fun d => (d.path.components, documentText print d.body)) ∧
      (written.filesBelow (FileTree.placeOf out)).length = report.documentsWritten ∧
      ∀ d ∈ (T.build settings).documents,
        written.read? (out.join d.path) = some (documentText print d.body) := by
  cases hwrite : tree.writeDocuments out (T.build settings).documents print with
  | mk after outcome =>
  rw [generate_eq hwrite] at h
  cases outcome with
  | error e => cases h
  | ok count =>
    cases h
    obtain ⟨hfiles, hcount, hread⟩ := FileTree.filesBelow_writeDocuments hsafe
      (fun d hd => components_ne_nil_of_isSafe hd (hsafe d hd)) hapart hempty hwrite
    refine ⟨hfiles, ?_, hread⟩
    rw [hfiles, List.length_map]
    exact hcount.symm

/-- A run comes to its end where there is room for documents that are apart. -/
theorem exists_generate {tree : FileTree} {out : UnixPath} (print : Json → String)
    (hsafe : ∀ d ∈ (T.build settings).documents, d.path.isSafe = true)
    (hapart : (T.build settings).documents.Pairwise fun a b => a.path.Apart b.path)
    (hroom : tree.Room out)
    (hfit : ∀ d ∈ (T.build settings).documents, FileTree.isShort (out.join d.path) = true ∧
      ∀ name ∈ d.path.components, FileTree.isName name = true) :
    ∃ written report, T.generate settings tree out print = (written, .ok report) := by
  have hends : ∀ d ∈ (T.build settings).documents,
      FileTree.endsInName (out.join d.path) = true := by
    intro d hd
    obtain ⟨front, hfront⟩ := exists_text_join out hd
    exact FileTree.endsInName_of_ending hfront
  obtain ⟨after, hwrite⟩ := FileTree.exists_writeDocuments print hroom hsafe
    (fun d hd => components_ne_nil_of_isSafe hd (hsafe d hd)) hapart hends hfit
  exact ⟨after, _, generate_eq hwrite⟩

/-- **Documents apart.** Where all paths stay below their directory, the documents of a build are
apart just when the vocabularies and indexes are and the fragments are; with plain titles, when no
lineage occurs twice among those and none among these. A run into an empty directory then leaves one
file for each document, with its text, and it comes to its end if the directory can be made and no
name or path is too long. -/
theorem documents_apart (T : Taxonomy) (settings : Settings) (print : Json → String)
    (hsafe : ∀ d ∈ (T.build settings).documents, d.path.isSafe = true) :
    ((T.build settings).documents.Pairwise (fun a b => a.path.Apart b.path) ↔
      (titlesIn .vocabulary (T.buildAddresses settings)).Pairwise FilesApart ∧
        (titlesIn .ontology (T.buildAddresses settings)).Pairwise FilesApart) ∧
    ((∀ a ∈ T.buildAddresses settings, ∀ t ∈ a.2, PlainTitle t) →
      ((T.build settings).documents.Pairwise (fun a b => a.path.Apart b.path) ↔
        (titlesIn .vocabulary (T.buildAddresses settings)).Nodup ∧
          (titlesIn .ontology (T.buildAddresses settings)).Nodup)) ∧
    ((T.build settings).documents.Pairwise (fun a b => a.path.Apart b.path) → ∀ tree out,
      (∀ written report, T.generate settings tree out print = (written, .ok report) →
        tree.below (FileTree.placeOf out) = [] →
          written.filesBelow (FileTree.placeOf out) = (T.build settings).documents.map
            (fun d => (d.path.components, documentText print d.body)) ∧
          (written.filesBelow (FileTree.placeOf out)).length = report.documentsWritten ∧
          ∀ d ∈ (T.build settings).documents,
            written.read? (out.join d.path) = some (documentText print d.body)) ∧
      (tree.Room out → (∀ d ∈ (T.build settings).documents,
          FileTree.isShort (out.join d.path) = true ∧
            ∀ name ∈ d.path.components, FileTree.isName name = true) →
        ∃ written report, T.generate settings tree out print = (written, .ok report))) := by
  exact ⟨pairwise_apart_iff hsafe, pairwise_apart_iff_nodup hsafe, fun hapart tree out =>
    ⟨fun _ _ hgenerate hempty => filesBelow_generate hsafe hapart hempty hgenerate,
      fun hroom hfit => exists_generate print hsafe hapart hroom hfit⟩⟩

/-! ## The documents of the estate -/

/-- A garden house has its documents twice. The garden is excluded, and has a vocabulary, an index and
a fragment only. -/
def estateAddresses : List (Section × Lineage) :=
  [(.vocabulary, ["Building"]), (.context, ["Building"]), (.classDefinitions, ["Building"]),
   (.vocabulary, ["Building", "index"]), (.ontology, ["Building"]),
   (.vocabulary, ["Building", "House"]), (.context, ["Building", "House"]),
   (.classDefinitions, ["Building", "House"]), (.vocabulary, ["Building", "House", "index"]),
   (.ontology, ["Building", "House"]),
   (.vocabulary, ["Garden"]), (.vocabulary, ["Garden", "index"]), (.ontology, ["Garden"]),
   (.vocabulary, ["Building", "House", "GardenHouse"]),
   (.context, ["Building", "House", "GardenHouse"]),
   (.classDefinitions, ["Building", "House", "GardenHouse"]),
   (.vocabulary, ["Garden", "GardenHouse"]), (.context, ["Garden", "GardenHouse"]),
   (.classDefinitions, ["Garden", "GardenHouse"]),
   (.ontology, ["Building", "House", "GardenHouse"]),
   (.vocabulary, ["index"])]

theorem excludes_estate : ∀ c ∈ estateClasses,
    estateSettings.excludes estate c.1 = decide (c.2.2 = "o:Garden") := by
  have hnames : ∀ c ∈ estateClasses, (decide (c.1.identifier ∈ estateSettings.excludedClasses) ||
      decide (estate.compactId c.1 ∈ estateSettings.excludedClasses) ||
      decide (c.2.2 ∈ estateSettings.excludedClasses)) = decide (c.2.2 = "o:Garden") := by
    decide +kernel
  intro c hc
  unfold Settings.excludes isNamedIn
  rw [canonicalId_estate c hc]
  exact hnames c hc

theorem addresses_estate : ∀ c ∈ estateClasses, estate.addresses estateSettings c.1 =
    (c.2.1.flatMap fun l => (.vocabulary, l) ::
      ((if c.2.2 = "o:Garden" then [] else [(.context, l), (.classDefinitions, l)]) ++
        if estate.hasChildren c.1 then [(.vocabulary, l ++ ["index"])] else [])) ++
      [(.ontology, canonicalLineage c.2.2)] := by
  intro c hc
  obtain ⟨bodies, hbodies⟩ := exists_classBodies_estate c hc
  have hbuilt : estate.Built estateSettings c.1 c.2.1 bodies c.2.2 :=
    ⟨lineages_estate c hc, hbodies, canonicalId_estate c hc⟩
  rw [hbuilt.addresses_eq, List.flatMap_congr fun l _ => hbuilt.lineageAddresses_eq l]
  simp only [excludes_estate c hc, decide_eq_true_eq]

theorem buildAddresses_estate : estate.buildAddresses estateSettings = estateAddresses := by
  have hnameless : estate.addresses estateSettings (.ofClass (.blank "shed")) = [] :=
    addresses_eq_nil (fails_classDocuments_of_canonicalId ⟨⟨"_:shed"⟩, rfl⟩)
  rw [buildAddresses, classes_estate, List.flatMap_append, List.flatMap_map,
    List.flatMap_congr addresses_estate, List.flatMap_singleton, hnameless]
  decide +kernel

theorem forall_path_estate {P : UnixPath → Prop}
    (h : ∀ a ∈ estateAddresses, P (documentPath a.1 a.2)) :
    ∀ d ∈ (estate.build estateSettings).documents, P d.path := by
  rw [← List.forall_mem_map (f := Document.path) (P := P), map_path_documents,
    buildAddresses_estate, List.forall_mem_map]
  exact h

/-- Five titles occur, at most three in one path. -/
theorem titles_estate : ∀ a ∈ estateAddresses, a.2 ≠ [] ∧ a.2.length ≤ 3 ∧
    ∀ t ∈ a.2, PlainTitle t ∧ FileTree.isName (t ++ ".jsonld") = true := by
  have hshape : ∀ a ∈ estateAddresses, a.2 ≠ [] ∧ a.2.length ≤ 3 ∧
      ∀ t ∈ a.2, t ∈ ["Building", "House", "Garden", "GardenHouse", "index"] := by decide
  have htitles : ∀ t ∈ ["Building", "House", "Garden", "GardenHouse", "index"],
      '/' ∉ t.toList ∧ t ≠ "" ∧ '.' ∉ t.toList ∧
        FileTree.isName (t ++ ".jsonld") = true := by decide
  intro a ha
  obtain ⟨hne, hlength, hlisted⟩ := hshape a ha
  refine ⟨hne, hlength, fun t ht => ?_⟩
  obtain ⟨hslash, hempty, hdot, hname⟩ := htitles t (hlisted t ht)
  exact ⟨.of_dot_notMem hslash hempty hdot, hname⟩

theorem fits_estate : ∀ d ∈ (estate.build estateSettings).documents,
    FileTree.isShort (UnixPath.join ⟨"out"⟩ d.path) = true ∧
      ∀ name ∈ d.path.components, FileTree.isName name = true := by
  refine forall_path_estate (P := fun path => FileTree.isShort (UnixPath.join ⟨"out"⟩ path) = true ∧
    ∀ name ∈ path.components, FileTree.isName name = true) fun a ha => ?_
  obtain ⟨hne, hlength, htitles⟩ := titles_estate a ha
  have hnames : ∀ t ∈ a.2, FileTree.isName (t ++ ".jsonld") = true := fun t ht => (htitles t ht).2
  have hcomponents := isName_of_mem_components_documentPath a.1 hne
    (fun t ht => (htitles t ht).1) hnames
  refine ⟨decide_eq_true ?_, hcomponents⟩
  have harea : a.1.directory.utf8ByteSize ≤ 16 := by cases a.1 <;> decide
  have hout : "out".utf8ByteSize = 3 := rfl
  have hpath := size_documentPath_le a.1 hnames
  have hjoin := UnixPath.size_push_le ⟨"out"⟩ (documentPath a.1 a.2).text
  dsimp only at hjoin
  unfold UnixPath.join
  omega

theorem apart_estate :
    (estate.build estateSettings).documents.Pairwise fun a b => a.path.Apart b.path := by
  have hnodup : (titlesIn .vocabulary estateAddresses).Nodup ∧
      (titlesIn .ontology estateAddresses).Nodup := by decide +kernel
  have hplain : ∀ a ∈ estate.buildAddresses estateSettings, ∀ t ∈ a.2, PlainTitle t := by
    rw [buildAddresses_estate]
    exact fun a ha t ht => ((titles_estate a ha).2.2 t ht).1
  rw [pairwise_apart_iff_nodup isSafe_estate hplain, buildAddresses_estate]
  exact hnodup

theorem room_empty : FileTree.empty.Room ⟨"out"⟩ where
  enterable := by decide
  outside := fun _ => FileTree.not_below_of_mem_waypoints (by decide)
  empty := rfl

/-- The estate is written as one file for each of its documents. -/
theorem estate_written :
    (∀ d ∈ (estate.build estateSettings).documents, d.path.isSafe = true) ∧
      ∃ written report, estate.generate estateSettings FileTree.empty ⟨"out"⟩ Json.pretty =
          (written, .ok report) ∧
        (written.filesBelow ["out"]).length = report.documentsWritten ∧
        report.documentsWritten = 21 ∧
        ∀ d ∈ (estate.build estateSettings).documents,
          written.read? (UnixPath.join ⟨"out"⟩ d.path) = some (documentText Json.pretty d.body) := by
  obtain ⟨-, -, hruns⟩ := documents_apart estate estateSettings Json.pretty isSafe_estate
  obtain ⟨hresult, hexists⟩ := hruns apart_estate FileTree.empty ⟨"out"⟩
  obtain ⟨written, report, hgenerate⟩ := hexists room_empty fits_estate
  obtain ⟨hfiles, hcount, hread⟩ := hresult written report hgenerate rfl
  refine ⟨isSafe_estate, written, report, hgenerate, hcount, ?_, hread⟩
  have hpaths : (estate.build estateSettings).documents.map Document.path =
      (estate.buildAddresses estateSettings).map fun a => documentPath a.1 a.2 :=
    map_path_documents
  have hlength := congrArg List.length hpaths
  rw [buildAddresses_estate, List.length_map, List.length_map] at hlength
  rw [← hcount, hfiles, List.length_map, hlength]
  rfl

/-! ## Two classes of one title -/

/-- Two namespaces that both have a class `A`. -/
def twoNamespaces : Taxonomy where
  store := .ofList
    [⟨.iri "http://x/o#A", Rdf.type, .iri Rdfs.classType⟩,
     ⟨.iri "http://x/p#A", Rdf.type, .iri Rdfs.classType⟩]
  namespaces := .empty

/-- Their documents have the same paths, although every class is built. -/
theorem same_title_same_path :
    (twoNamespaces.build {}).failures = [] ∧
      ¬ ((twoNamespaces.build {}).documents.map Document.path).Nodup := by
  have hbuilds : (twoNamespaces.build {}).failures = [] :=
    failures_build_eq_nil_of_titled (by decide) (by decide) (by decide)
  refine ⟨hbuilds, fun hnodup => ?_⟩
  have hclasses : twoNamespaces.classes =
      [.ofClass (.iri "http://x/o#A"), .ofClass (.iri "http://x/p#A")] := by decide
  have hvocabulary : ∀ n ∈ twoNamespaces.classes,
      (.vocabulary, ["A"]) ∈ twoNamespaces.addresses {} n := by
    intro n hn
    obtain ⟨lineages, bodies, id, hbuilt⟩ := exists_built_of_failures_eq_nil hbuilds hn
    have hroot : ∀ n ∈ twoNamespaces.classes, twoNamespaces.realParents n = [] ∧
        twoNamespaces.title n = .ok "A" := by decide
    obtain ⟨hparents, htitle⟩ := hroot n hn
    obtain rfl : lineages = [["A"]] :=
      Except.ok.inj (hbuilt.lineages_eq.symm.trans (lineages_of_root hparents htitle))
    rw [hbuilt.addresses_eq]
    simp [lineageAddresses]
  rw [map_path_documents, buildAddresses, hclasses] at hnodup
  rw [hclasses] at hvocabulary
  simp only [List.flatMap_cons, List.flatMap_nil, List.append_assoc, List.map_append] at hnodup
  refine (List.nodup_append.1 hnodup).2.2 _ (List.mem_map_of_mem (hvocabulary _ (by simp))) _
    (List.mem_append_left _ (List.mem_map_of_mem (hvocabulary _ ?_))) rfl
  simp

end Taxonomy

end TaxonomyPress
