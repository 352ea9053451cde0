import TaxonomyPress.Proofs.TreeShape

/-!
# Which documents have a redirect

* `FileTree.stub_cases` : what asks for a stub, and where it comes to lie;
* `FileTree.place_inj` : no two entries ask for stubs at one place;
* `FileTree.target_cases` : only a document itself and the directory beside it ask for a stub to it;
* `FileTree.Overlooked` : both leave the stub to the other;
* `FileTree.CanWalk`, `FileTree.writeRedirects_cases` : the roots below which a run looks for entries;
* `FileTree.documents_redirected` : every other document has one stub, and it is written.
-/

namespace TaxonomyPress

namespace FileTree

variable {tree : FileTree} {root : Place}

/-! ## Stubs -/

theorem stubFor_directory (parent : Place) (name : String) :
    tree.stubFor root (parent ++ [name], .directory) = tree.directoryStub root parent name := by
  unfold stubFor
  rw [List.getLast?_concat, List.dropLast_concat]

theorem stubFor_file (parent : Place) (name text : String) :
    tree.stubFor root (parent ++ [name], .file text) = tree.documentStub root parent name := by
  unfold stubFor
  rw [List.getLast?_concat, List.dropLast_concat]

theorem documentStub_eq_some_iff {parent : Place} {name : String} {stub : Stub} :
    tree.documentStub root parent name = some stub ↔
      ∃ stem, stem ++ ".jsonld" = name ∧ stem ≠ "index" ∧
        tree.leadsToDirectory (root ++ parent) stem = false ∧
        ⟨parent ++ [stem ++ ".md"], parent ++ [name]⟩ = stub := by
  unfold documentStub
  rw [Option.bind_eq_bind, Option.bind_eq_some_iff]
  refine exists_congr fun stem => ?_
  rw [Text.dropSuffix_eq_some_iff]
  refine and_congr_right fun _ => ?_
  rw [Option.bind_eq_bind, Option.bind_eq_some_iff]
  simp [guard, Bool.and_eq_true, and_assoc]

theorem isFile_iff {place : Place} :
    tree.isFile place = true ↔ ∃ text, tree.entry? place = some (.file text) := by
  unfold isFile
  split
  · rename_i text h
    exact ⟨fun _ => ⟨text, h⟩, fun _ => rfl⟩
  · rename_i h
    exact ⟨nofun, fun ⟨text, htext⟩ => absurd htext (h text)⟩

theorem isDirectory_iff {place : Place} :
    tree.isDirectory place = true ↔ tree.entry? place = some .directory := by
  unfold isDirectory
  split
  · rename_i h
    exact ⟨fun _ => h, fun _ => rfl⟩
  · rename_i h
    exact ⟨nofun, fun hdirectory => absurd hdirectory h⟩

theorem directoryStub_eq_some {parent : Place} {name : String} {stub : Stub}
    (h : tree.directoryStub root parent name = some stub) :
    name ∉ pagelessDirectories ∧ stub.place = parent ++ [name] ++ ["index.md"] ∧
      (stub.target = parent ++ [name ++ ".jsonld"] ∨
        stub.target = parent ++ [name] ++ ["index.jsonld"]) := by
  unfold directoryStub at h
  dsimp only at h
  split at h
  · cases h
  · rename_i hpage
    split at h
    · obtain rfl := Option.some.inj h
      exact ⟨hpage, rfl, Or.inl rfl⟩
    · split at h
      · obtain rfl := Option.some.inj h
        exact ⟨hpage, rfl, Or.inr rfl⟩
      · cases h

/-- A stub lies beside the document that asks for it, or is the page of a directory. -/
theorem stub_cases {found : Place × Entry} {stub : Stub}
    (h : tree.stubFor root found = some stub) :
    (∃ parent stem text, found = (parent ++ [stem ++ ".jsonld"], .file text) ∧ stem ≠ "index" ∧
        tree.leadsToDirectory (root ++ parent) stem = false ∧
        stub = ⟨parent ++ [stem ++ ".md"], parent ++ [stem ++ ".jsonld"]⟩) ∨
      ∃ parent name, found = (parent ++ [name], .directory) ∧ name ∉ pagelessDirectories ∧
        stub.place = parent ++ [name] ++ ["index.md"] ∧
        (stub.target = parent ++ [name ++ ".jsonld"] ∨
          stub.target = parent ++ [name] ++ ["index.jsonld"]) := by
  obtain ⟨names, e⟩ := found
  rcases List.eq_nil_or_concat names with rfl | ⟨parent, name, rfl⟩
  · cases h
  rw [List.concat_eq_append] at h ⊢
  cases e with
  | directory =>
    rw [stubFor_directory] at h
    exact Or.inr ⟨parent, name, rfl, directoryStub_eq_some h⟩
  | file text =>
    rw [stubFor_file] at h
    obtain ⟨stem, rfl, hindex, hfree, rfl⟩ := documentStub_eq_some_iff.1 h
    exact Or.inl ⟨parent, stem, text, rfl, hindex, hfree, rfl⟩

/-- The stub beside a document is never the page of a directory: the index has none. -/
theorem place_inj {found found' : Place × Entry} {stub stub' : Stub}
    (h : tree.stubFor root found = some stub) (h' : tree.stubFor root found' = some stub')
    (hplace : stub.place = stub'.place) : found.1 = found'.1 := by
  have hpage {parent parent' : Place} {stem : String} (hstem : stem ≠ "index") :
      parent ++ [stem ++ ".md"] ≠ parent' ++ ["index.md"] := by
    intro heq
    exact hstem ((String.append_left_inj ".md").1 (List.append_singleton_inj.1 heq).2)
  rcases stub_cases h with ⟨parent, stem, text, rfl, hindex, -, rfl⟩ |
    ⟨parent, name, rfl, -, hstub, -⟩ <;>
  rcases stub_cases h' with ⟨parent', stem', text', rfl, hindex', -, rfl⟩ |
    ⟨parent', name', rfl, -, hstub', -⟩
  case inl.inl =>
    obtain ⟨rfl, hstem⟩ := List.append_singleton_inj.1 hplace
    rw [(String.append_left_inj ".md").1 hstem]
  case inl.inr => exact absurd (hplace.trans hstub') (hpage hindex)
  case inr.inl => exact absurd (hplace.symm.trans hstub) (hpage hindex')
  case inr.inr => exact (List.append_singleton_inj.1 (hstub.symm.trans (hplace.trans hstub'))).1

/-- A document has its stub from itself, or from the directory of its name beside it. -/
theorem target_cases {found : Place × Entry} {stub : Stub} {parent : Place} {name : String}
    (h : tree.stubFor root found = some stub) (hindex : name ≠ "index")
    (htarget : stub.target = parent ++ [name ++ ".jsonld"]) :
    (∃ text, found = (parent ++ [name ++ ".jsonld"], .file text) ∧
        tree.leadsToDirectory (root ++ parent) name = false) ∨
      found = (parent ++ [name], .directory) ∧ name ∉ pagelessDirectories := by
  have hname (parent' : Place) (stem : String)
      (heq : parent' ++ [stem ++ ".jsonld"] = parent ++ [name ++ ".jsonld"]) :
      parent' = parent ∧ stem = name := by
    obtain ⟨rfl, hstem⟩ := List.append_singleton_inj.1 heq
    exact ⟨rfl, (String.append_left_inj ".jsonld").1 hstem⟩
  rcases stub_cases h with ⟨parent', stem, text, rfl, -, hfree, rfl⟩ |
    ⟨parent', name', rfl, hpage, -, hbeside | hown⟩
  · obtain ⟨rfl, rfl⟩ := hname parent' stem htarget
    exact Or.inl ⟨text, rfl, hfree⟩
  · obtain ⟨rfl, rfl⟩ := hname parent' name' (hbeside.symm.trans htarget)
    exact Or.inr ⟨rfl, hpage⟩
  · exact absurd (hname _ "index" (hown.symm.trans htarget)).2.symm hindex

/-! ## The stubs of a document -/

/-- Both the document and the directory beside it leave the stub to the other: some directories have
no page, and `.` and `..` lead from the document to a directory, but to none beside it. -/
def Overlooked (tree : FileTree) (root parent : Place) (name : String) : Prop :=
  name = "." ∨ name = ".." ∨
    name ∈ pagelessDirectories ∧ tree.isDirectory (root ++ (parent ++ [name])) = true

/-- The stubs of everything below `root`. -/
def stubsBelow (tree : FileTree) (root : Place) : List Stub := tree.stubs root (tree.below root)

/-- Those of them whose page leads to `place`. -/
def stubsTo (tree : FileTree) (root place : Place) : List Stub :=
  (tree.stubsBelow root).filter (·.text = stubText (siteAddress place))

theorem mem_stubsBelow_iff {stub : Stub} :
    stub ∈ tree.stubsBelow root ↔ ∃ found ∈ tree.below root, tree.stubFor root found = some stub :=
  List.mem_filterMap

theorem WellFormed.nodup_places (h : tree.WellFormed) :
    ((tree.stubsBelow root).map (·.place)).Nodup := by
  refine List.pairwise_map.2 (List.pairwise_filterMap.2 ((h.pairwise_below root).imp ?_))
  exact fun hne stub hstub stub' hstub' heq => hne (place_inj hstub hstub' heq)

theorem concat_ne_nil (parent : Place) (name : String) : parent ++ [name] ≠ [] :=
  List.append_ne_nil_of_right_ne_nil _ (List.cons_ne_nil _ _)

theorem slash_notMem_stem {parent : Place} {stem ending : String}
    (h : ∀ part ∈ parent ++ [stem ++ ending], isEntryName part = true) : '/' ∉ stem.toList := by
  obtain ⟨-, -, -, hslash⟩ :=
    isEntryName_iff.1 (h _ (List.mem_append_right parent (List.mem_singleton_self _)))
  rw [String.toList_append, List.mem_append, not_or] at hslash
  exact hslash.1

theorem isEntryName_append_ending {stem : String} (ending : String)
    (h : '/' ∉ stem.toList) (hending : '/' ∉ ending.toList) (hlong : 2 < ending.length) :
    isEntryName (stem ++ ending) = true := by
  have hlength (name : String) (hname : name.length ≤ 2) : stem ++ ending ≠ name := by
    intro heq
    have := congrArg String.length heq
    rw [String.length_append] at this
    omega
  refine isEntryName_iff.2 ⟨hlength "" (by decide), hlength "." (by decide),
    hlength ".." (by decide), ?_⟩
  rw [String.toList_append, List.mem_append, not_or]
  exact ⟨h, hending⟩

/-- A stub lies where an entry can, and so does what it leads to. -/
theorem WellFormed.stub_names (h : tree.WellFormed) {stub : Stub}
    (hstub : stub ∈ tree.stubsBelow root) :
    (∀ name ∈ stub.place, isEntryName name = true) ∧
      stub.target ≠ [] ∧ ∀ name ∈ stub.target, isEntryName name = true := by
  obtain ⟨found, hfound, hasks⟩ := mem_stubsBelow_iff.1 hstub
  have hnames := h.named_below hfound
  have hconcat {names : Place} {name : String} (hfront : ∀ part ∈ names, isEntryName part = true)
      (hname : isEntryName name = true) : ∀ part ∈ names ++ [name], isEntryName part = true :=
    List.forall_mem_append.2 ⟨hfront, List.forall_mem_singleton.2 hname⟩
  rcases stub_cases hasks with ⟨parent, stem, text, rfl, -, -, rfl⟩ |
    ⟨parent, name, rfl, -, hplace, htarget⟩
  · refine ⟨hconcat (List.forall_mem_append.1 hnames).1 ?_, concat_ne_nil _ _, hnames⟩
    exact isEntryName_append_ending ".md" (slash_notMem_stem hnames) (by decide) (by decide)
  · obtain ⟨hparent, hname⟩ := List.forall_mem_append.1 hnames
    obtain ⟨-, -, -, hslash⟩ := isEntryName_iff.1 (hname name (List.mem_singleton_self _))
    rw [hplace]
    refine ⟨hconcat hnames (by decide), ?_⟩
    rcases htarget with htarget | htarget
    · rw [htarget]
      refine ⟨concat_ne_nil _ _, hconcat hparent ?_⟩
      exact isEntryName_append_ending ".jsonld" hslash (by decide) (by decide)
    · rw [htarget]
      exact ⟨concat_ne_nil _ _, hconcat hnames (by decide)⟩

theorem siteAddress_inj {place place' : Place} (hne : place ≠ []) (hne' : place' ≠ [])
    (h : ∀ name ∈ place, isEntryName name = true) (h' : ∀ name ∈ place', isEntryName name = true) :
    siteAddress place = siteAddress place' ↔ place = place' := by
  refine ⟨fun heq => ?_, congrArg siteAddress⟩
  have hcut (q : Place) (hq : q ≠ []) (hnames : ∀ name ∈ q, isEntryName name = true) :
      Text.segments '/' (Text.join "/" q) = q :=
    Text.segments_join rfl hq fun name hname => (isEntryName_iff.1 (hnames name hname)).2.2.2
  rw [← hcut place hne h, ← hcut place' hne' h', (String.append_right_inj "/").1 heq]

theorem stubText_inj {target target' : String} :
    stubText target = stubText target' ↔ target = target' := by
  unfold stubText
  rw [String.append_left_inj, String.append_right_inj]

/-- Pages lead to different documents if their texts differ. -/
theorem WellFormed.text_eq_iff (h : tree.WellFormed) {stub : Stub} {place : Place}
    (hstub : stub ∈ tree.stubsBelow root) (hplace : place ≠ [])
    (hnames : ∀ name ∈ place, isEntryName name = true) :
    stub.text = stubText (siteAddress place) ↔ stub.target = place := by
  obtain ⟨-, hne, htarget⟩ := h.stub_names hstub
  exact stubText_inj.trans (siteAddress_inj hne hplace htarget hnames)

/-- One entry alone asks for a stub to a place, if all that ask for one are that entry. -/
theorem WellFormed.stubsTo_eq (h : tree.WellFormed) {place : Place} (hplace : place ≠ [])
    (hnames : ∀ name ∈ place, isEntryName name = true) {found : Place × Entry} {stub : Stub}
    (hfound : found ∈ tree.below root) (hstub : tree.stubFor root found = some stub)
    (htarget : stub.target = place)
    (hsole : ∀ found' ∈ tree.below root, ∀ stub', tree.stubFor root found' = some stub' →
      stub'.target = place → found' = found) : tree.stubsTo root place = [stub] := by
  have htext {stub' : Stub} (hmem : stub' ∈ tree.stubsBelow root) :=
    h.text_eq_iff hmem hplace hnames
  have hmem : stub ∈ tree.stubsBelow root := mem_stubsBelow_iff.2 ⟨found, hfound, hstub⟩
  have hnodup : (tree.stubsTo root place).Nodup := (h.nodup_places.of_map _).filter _
  refine List.perm_singleton.1 ((List.perm_ext_iff_of_nodup hnodup (List.nodup_singleton _)).2 ?_)
  intro stub'
  rw [List.mem_singleton]
  constructor
  · intro hstub'
    obtain ⟨hmem', hleads⟩ := List.mem_filter.1 hstub'
    obtain ⟨found', hfound', hasks⟩ := mem_stubsBelow_iff.1 hmem'
    obtain rfl := hsole found' hfound' stub' hasks ((htext hmem').1 (of_decide_eq_true hleads))
    exact Option.some.inj (hasks.symm.trans hstub)
  · rintro rfl
    exact List.mem_filter.2 ⟨hmem, decide_eq_true ((htext hmem).2 htarget)⟩

variable {parent : Place} {name : String}

theorem leadsToDirectory_iff (hempty : name ≠ "") :
    tree.leadsToDirectory (root ++ parent) name = true ↔
      name = "." ∨ name = ".." ∨ tree.isDirectory (root ++ (parent ++ [name])) = true := by
  unfold leadsToDirectory
  rw [List.append_assoc]
  simp [hempty, or_assoc]

section Document

variable {text : String} (h : tree.WellFormed)
  (hfile : (parent ++ [name ++ ".jsonld"], .file text) ∈ tree.below root)
include h hfile

/-- The names that lead to the directory beside a document. -/
theorem WellFormed.names_beside (hempty : name ≠ "") (hdot : name ≠ ".") (hup : name ≠ "..") :
    ∀ part ∈ parent ++ [name], isEntryName part = true := by
  have hnames := h.named_below hfile
  have hname := isEntryName_iff.2 ⟨hempty, hdot, hup, slash_notMem_stem hnames⟩
  exact List.forall_mem_append.2
    ⟨(List.forall_mem_append.1 hnames).1, List.forall_mem_singleton.2 hname⟩

theorem WellFormed.stubsTo_of_overlooked (hempty : name ≠ "") (hindex : name ≠ "index")
    (hoverlooked : tree.Overlooked root parent name) :
    tree.stubsTo root (parent ++ [name ++ ".jsonld"]) = [] := by
  rw [stubsTo, List.filter_eq_nil_iff]
  intro stub hstub htext
  have htarget :=
    (h.text_eq_iff hstub (concat_ne_nil _ _) (h.named_below hfile)).1 (of_decide_eq_true htext)
  obtain ⟨found, hfound, hasks⟩ := mem_stubsBelow_iff.1 hstub
  rcases target_cases hasks hindex htarget with ⟨text, rfl, hfree⟩ | ⟨rfl, hpage⟩
  · rw [← Bool.not_eq_true, leadsToDirectory_iff hempty] at hfree
    exact hfree (hoverlooked.imp_right (Or.imp_right And.right))
  · obtain ⟨-, hdot, hup, -⟩ := isEntryName_iff.1
      (h.named_below hfound name (List.mem_append_right _ (List.mem_singleton_self _)))
    rcases hoverlooked with rfl | rfl | ⟨hpage', -⟩
    · exact hdot rfl
    · exact hup rfl
    · exact hpage hpage'

theorem WellFormed.stubsTo_of_directory (hempty : name ≠ "") (hindex : name ≠ "index")
    (hoverlooked : ¬ tree.Overlooked root parent name)
    (hdirectory : tree.isDirectory (root ++ (parent ++ [name])) = true) :
    tree.stubsTo root (parent ++ [name ++ ".jsonld"]) =
      [⟨parent ++ [name] ++ ["index.md"], parent ++ [name ++ ".jsonld"]⟩] := by
  unfold Overlooked at hoverlooked
  rw [not_or, not_or, not_and'] at hoverlooked
  obtain ⟨hdot, hup, hpage⟩ := hoverlooked
  have hfound : (parent ++ [name], .directory) ∈ tree.below root :=
    mem_below_of_entry?_eq_some (concat_ne_nil _ _) (h.names_beside hfile hempty hdot hup)
      (isDirectory_iff.1 hdirectory)
  refine h.stubsTo_eq (concat_ne_nil _ _) (h.named_below hfile) hfound ?_ rfl ?_
  · rw [stubFor_directory]
    unfold directoryStub
    rw [if_neg (hpage hdirectory), if_pos (isFile_iff.2 ⟨text, h.entry?_of_mem_below hfile⟩)]
  · intro found' hfound' stub' hstub' htarget
    rcases target_cases hstub' hindex htarget with ⟨text', -, hfree⟩ | ⟨rfl, -⟩
    · rw [← Bool.not_eq_true, leadsToDirectory_iff hempty] at hfree
      exact absurd (Or.inr (Or.inr hdirectory)) hfree
    · rfl

theorem WellFormed.stubsTo_of_no_directory (hempty : name ≠ "") (hindex : name ≠ "index")
    (hoverlooked : ¬ tree.Overlooked root parent name)
    (hdirectory : ¬ tree.isDirectory (root ++ (parent ++ [name])) = true) :
    tree.stubsTo root (parent ++ [name ++ ".jsonld"]) =
      [⟨parent ++ [name ++ ".md"], parent ++ [name ++ ".jsonld"]⟩] := by
  refine h.stubsTo_eq (concat_ne_nil _ _) (h.named_below hfile) hfile ?_ rfl ?_
  · rw [stubFor_file, documentStub_eq_some_iff]
    refine ⟨name, rfl, hindex, ?_, rfl⟩
    rw [← Bool.not_eq_true, leadsToDirectory_iff hempty]
    rintro (hdot | hup | hbeside)
    · exact hoverlooked (Or.inl hdot)
    · exact hoverlooked (Or.inr (Or.inl hup))
    · exact hdirectory hbeside
  · intro found' hfound' stub' hstub' htarget
    rcases target_cases hstub' hindex htarget with ⟨text', rfl, -⟩ | ⟨rfl, -⟩
    · rw [h.eq_of_mem_below hfound' hfile]
    · exact absurd (isDirectory_iff.2 (h.entry?_of_mem_below hfound')) hdirectory

end Document

/-! ## Writing the stubs -/

section Push

variable (path : UnixPath) {names : Place} (h : ∀ name ∈ names, isEntryName name = true)
include h

theorem any_startsWith_slash : names.any (Text.startsWith "/") = false := by
  rw [List.any_eq_false]
  intro name hname
  rw [startsWith_of_isEntryName (h name hname)]
  exact nofun

theorem startOf_foldl_push : startOf (names.foldl UnixPath.push path) = startOf path := by
  unfold startOf
  rw [UnixPath.isAbsolute_foldl_push, any_startsWith_slash h, Bool.or_false]

theorem components_foldl_push :
    (names.foldl UnixPath.push path).components = path.components ++ names := by
  rw [UnixPath.components_foldl_push path (any_startsWith_slash h),
    List.flatMap_congr fun name hname => components_of_isEntryName (h name hname),
    List.flatMap_singleton']

theorem up_notMem : ".." ∉ names :=
  fun hmem => (isEntryName_iff.1 (h _ hmem)).2.2.1 rfl

theorem placeOf_foldl_push :
    placeOf (names.foldl UnixPath.push path) = placeOf path ++ names := by
  unfold placeOf
  rw [startOf_foldl_push path h, components_foldl_push path h, resolveNames_append,
    resolveNames_of_notMem _ (up_notMem h)]

end Push

theorem WellFormed.stubsBelow_eq_nil (h : tree.WellFormed)
    (hroot : tree.entry? root ≠ some .directory) : tree.stubsBelow root = [] := by
  unfold stubsBelow
  rw [h.below_eq_nil hroot]
  rfl

/-- The stubs at their paths below `root`. -/
def stubTexts (root : UnixPath) (stubs : List Stub) : List (UnixPath × String) :=
  stubs.map fun stub => (stub.place.foldl UnixPath.push root, stub.text)

theorem writeRedirectsAlong_eq_ok_iff {tree after : FileTree} {root : UnixPath} {place : Place}
    {walk : List (Place × Entry)} {count : Nat} :
    tree.writeRedirectsAlong root place walk = (after, .ok count) ↔
      tree.writeTexts (stubTexts root (tree.stubs place walk)) = (after, .ok ()) ∧
        (tree.stubs place walk).length = count := by
  unfold writeRedirectsAlong stubTexts
  dsimp only
  generalize tree.writeTexts _ = run
  obtain ⟨written, _ | _⟩ := run
  · simp [Except.map]
  · simp [Except.map]

/-- A root that can be walked: directories lead there, and it is one itself, or a file. -/
def CanWalk (tree : FileTree) (root : UnixPath) : Prop :=
  tree.isPassable root = true ∧ ( tree.entry? (placeOf root) = some .directory ∨
    endsInName root = true ∧ ∃ text, tree.entry? (placeOf root) = some (.file text))

theorem writeRedirects_cases (tree : FileTree) (root : UnixPath) :
    (tree.CanWalk root ∧ tree.entry? (placeOf root) = some .directory ∧
        tree.writeRedirects root =
          tree.writeRedirectsAlong root (placeOf root) (tree.below (placeOf root))) ∨
      (tree.CanWalk root ∧ (∃ text, tree.entry? (placeOf root) = some (.file text)) ∧
        tree.writeRedirects root = (tree, .ok 0)) ∨
      ¬ tree.CanWalk root ∧ tree.writeRedirects root = (tree, .error (.cannotWalk root)) := by
  unfold writeRedirects CanWalk
  dsimp only
  cases hopen : tree.isPassable root with
  | false => exact Or.inr (Or.inr ⟨nofun, rfl⟩)
  | true =>
    rw [if_pos rfl]
    cases hplace : tree.entry? (placeOf root) with
    | none =>
      refine Or.inr (Or.inr ⟨?_, rfl⟩)
      rintro ⟨-, hdirectory | ⟨-, text, hfile⟩⟩
      · cases hdirectory
      · cases hfile
    | some entry =>
      cases entry with
      | directory => exact Or.inl ⟨⟨rfl, Or.inl rfl⟩, rfl, rfl⟩
      | file text =>
        cases hends : endsInName root with
        | true => exact Or.inr (Or.inl ⟨⟨rfl, Or.inr ⟨rfl, text, rfl⟩⟩, ⟨text, rfl⟩, rfl⟩)
        | false =>
          refine Or.inr (Or.inr ⟨?_, rfl⟩)
          rintro ⟨-, hdirectory | ⟨hends', -⟩⟩
          · cases hdirectory
          · cases hends'

theorem writeRedirects_eq_ok {tree after : FileTree} {root : UnixPath} {count : Nat}
    (h : tree.writeRedirects root = (after, .ok count)) :
    (∃ text, tree.entry? (placeOf root) = some (.file text) ∧ count = 0) ∨
      tree.entry? (placeOf root) = some .directory ∧
      tree.writeTexts ((tree.stubsBelow (placeOf root)).map fun stub =>
        (stub.place.foldl UnixPath.push root, stub.text)) = (after, .ok ()) ∧
      (tree.stubsBelow (placeOf root)).length = count := by
  rcases tree.writeRedirects_cases root with
    ⟨-, hdirectory, heq⟩ | ⟨-, ⟨text, hfile⟩, heq⟩ | ⟨-, heq⟩
  · exact Or.inr ⟨hdirectory, writeRedirectsAlong_eq_ok_iff.1 (heq.symm.trans h)⟩
  · rw [h] at heq
    cases heq
    exact Or.inl ⟨text, hfile, rfl⟩
  · rw [h] at heq
    cases heq

/-- **Redirects**: a run that succeeds writes all stubs, each at a place of its own. Every document
that is not overlooked has one stub among them, and every other document has none. -/
theorem documents_redirected {tree after : FileTree} {root : UnixPath} {count : Nat}
    (htree : tree.WellFormed) (h : tree.writeRedirects root = (after, .ok count)) :
    (tree.stubsBelow (placeOf root)).length = count ∧
    ((tree.stubsBelow (placeOf root)).map (·.place)).Nodup ∧
    (∀ stub ∈ tree.stubsBelow (placeOf root),
      placeOf (stub.place.foldl UnixPath.push root) = placeOf root ++ stub.place ∧
      after.read? (stub.place.foldl UnixPath.push root) = some stub.text) ∧
    ∀ parent name text, (parent ++ [name ++ ".jsonld"], .file text) ∈ tree.below (placeOf root) →
      name ≠ "" → name ≠ "index" →
      ( tree.Overlooked (placeOf root) parent name →
        tree.stubsTo (placeOf root) (parent ++ [name ++ ".jsonld"]) = []) ∧
      (¬ tree.Overlooked (placeOf root) parent name →
        tree.stubsTo (placeOf root) (parent ++ [name ++ ".jsonld"]) =
          [⟨if tree.isDirectory (placeOf root ++ (parent ++ [name])) then
              parent ++ [name] ++ ["index.md"]
            else parent ++ [name ++ ".md"], parent ++ [name ++ ".jsonld"]⟩]) := by
  have hplace {stub : Stub}
      (hstub : stub ∈ tree.stubsBelow (placeOf root)) :
      placeOf (stub.place.foldl UnixPath.push root) = placeOf root ++ stub.place :=
    placeOf_foldl_push root (htree.stub_names hstub).1
  refine ⟨?_, htree.nodup_places, fun stub hstub => ⟨hplace hstub, ?_⟩, ?_⟩
  · rcases writeRedirects_eq_ok h with ⟨text, hfile, rfl⟩ | ⟨-, -, hcount⟩
    · rw [htree.stubsBelow_eq_nil (by rw [hfile]; exact nofun)]
      rfl
    · exact hcount
  · rcases writeRedirects_eq_ok h with ⟨text, hfile, -⟩ | ⟨-, hwritten, -⟩
    · rw [htree.stubsBelow_eq_nil (by rw [hfile]; exact nofun)] at hstub
      cases hstub
    · have hapart : (tree.stubsBelow (placeOf root)).Pairwise fun stub stub' =>
          placeOf (stub.place.foldl UnixPath.push root) ≠
            placeOf (stub'.place.foldl UnixPath.push root) := by
        refine (List.pairwise_map.1 htree.nodup_places).imp_of_mem ?_
        intro stub stub' hmem hmem' hne heq
        rw [hplace hmem, hplace hmem', List.append_right_inj] at heq
        exact hne heq
      exact read?_writeTexts hwritten (List.pairwise_map.2 hapart)
        (stub.place.foldl UnixPath.push root, stub.text) (List.mem_map.2 ⟨stub, hstub, rfl⟩)
  · intro parent name text hfile hempty hindex
    refine ⟨htree.stubsTo_of_overlooked hfile hempty hindex, fun hoverlooked => ?_⟩
    split
    · rename_i hdirectory
      exact htree.stubsTo_of_directory hfile hempty hindex hoverlooked hdirectory
    · rename_i hdirectory
      exact htree.stubsTo_of_no_directory hfile hempty hindex hoverlooked hdirectory

/-- A document, and beside it a directory of its name with a document of its own. -/
def besideTree (name : String) : FileTree :=
  ⟨[(["out"], .directory), (["out", "Vocabulary"], .directory),
    (["out", "Vocabulary", name ++ ".jsonld"], .file "{}"),
    (["out", "Vocabulary", name], .directory),
    (["out", "Vocabulary", name, "House.jsonld"], .file "{}")]⟩

theorem building_redirected : (besideTree "Building").WellFormed ∧ ∃ after,
    (besideTree "Building").writeRedirects ⟨"out"⟩ = (after, .ok 2) ∧
    (besideTree "Building").stubsTo ["out"] ["Vocabulary", "Building.jsonld"] =
      [⟨["Vocabulary", "Building", "index.md"], ["Vocabulary", "Building.jsonld"]⟩] ∧
    after.read? ⟨"out/Vocabulary/Building/index.md"⟩ =
      some "---\nredirect_to: \"/Vocabulary/Building.jsonld\"\n---\n" := by
  have htree : (besideTree "Building").WellFormed := by
    constructor
    case once => decide +kernel
    case resolved =>
      have hnames : ∀ found ∈ (besideTree "Building").entries, ∀ name ∈ found.1,
          isEntryName name = true := by decide
      exact fun found hfound => .of_forall (hnames found hfound)
    case inside => decide +kernel
  have hrun : (besideTree "Building").writeRedirects ⟨"out"⟩ =
      (((besideTree "Building").writeRedirects ⟨"out"⟩).1, .ok 2) :=
    Prod.ext rfl (by rfl)
  obtain ⟨-, -, hwritten, hdocuments⟩ := documents_redirected htree hrun
  have hstub := (hdocuments ["Vocabulary"] "Building" "{}" (by decide) (by decide)
    (by decide)).2 (by unfold Overlooked; decide)
  have hmem := (List.mem_filter.1 (hstub ▸ List.mem_singleton_self _)).1
  exact ⟨htree, _, hrun, hstub, (hwritten _ hmem).2⟩

/-- A directory `Context` has no page, so the document beside it has no redirect. -/
theorem context_unredirected : (besideTree "Context").WellFormed ∧ ∃ after,
    (besideTree "Context").writeRedirects ⟨"out"⟩ = (after, .ok 1) ∧
    (["Vocabulary", "Context.jsonld"], .file "{}") ∈ (besideTree "Context").below ["out"] ∧
    (besideTree "Context").stubsTo ["out"] ["Vocabulary", "Context.jsonld"] = [] ∧
    after.read? ⟨"out/Vocabulary/Context.md"⟩ = none ∧
    after.read? ⟨"out/Vocabulary/Context/index.md"⟩ = none := by
  refine ⟨?_, ((besideTree "Context").writeRedirects ⟨"out"⟩).1, Prod.ext rfl (by rfl), ?_⟩
  · constructor
    case once => decide
    case resolved =>
      have hnames : ∀ found ∈ (besideTree "Context").entries, ∀ name ∈ found.1,
          isEntryName name = true := by decide
      exact fun found hfound => .of_forall (hnames found hfound)
    case inside => decide
  · decide +kernel

end FileTree

end TaxonomyPress
