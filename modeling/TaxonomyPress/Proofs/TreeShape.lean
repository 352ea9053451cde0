import Mathlib.Data.List.Induction
import TaxonomyPress.Proofs.Dictionaries
import TaxonomyPress.Proofs.TreeChanges
import TaxonomyPress.Tree.Generate
import TaxonomyPress.Tree.Redirect

/-!
# The shape of file trees

* `isEntryName` : the names that lead from a directory to an entry in it;
* `Place.IsResolved` : an outermost directory and names that lead on from it, as paths have them
  after every `..` (`FileTree.isResolved_resolveNames`);
* `FileTree.WellFormed` : every place has one entry, with names that lead there, and lies in a
  directory;
* `WellFormed.writeTexts` : writing keeps this, whether the run comes to its end or not, so all that
  is generated keeps it (`WellFormed.generate`, `WellFormed.writeRedirects`);
* `WellFormed.named_below`, `WellFormed.entry?_of_mem_below` : what a walk meets below a place.
-/

namespace TaxonomyPress

/-! ## Names -/

/-- A name that can lead from a directory to an entry in it. -/
def isEntryName (name : String) : Bool :=
  name ≠ "" && name ≠ "." && name ≠ ".." && !name.toList.contains '/'

theorem isEntryName_iff {name : String} :
    isEntryName name = true ↔ name ≠ "" ∧ name ≠ "." ∧ name ≠ ".." ∧ '/' ∉ name.toList := by
  unfold isEntryName
  simp [and_assoc]

theorem components_of_isEntryName {name : String} (h : isEntryName name = true) :
    UnixPath.components ⟨name⟩ = [name] := by
  obtain ⟨hempty, hdot, -, hslash⟩ := isEntryName_iff.1 h
  have hnames := namesOf_of_notMem hslash
    (fun heq => hempty (String.toList_inj.1 heq)) fun heq => hdot (String.toList_inj.1 heq)
  rw [String.ofList_toList] at hnames
  exact hnames

theorem startsWith_of_isEntryName {name : String} (h : isEntryName name = true) :
    Text.startsWith "/" name = false := by
  obtain ⟨-, -, -, hslash⟩ := isEntryName_iff.1 h
  rw [← Bool.not_eq_true, startsWith_slash_iff]
  rintro ⟨rest, hrest⟩
  exact hslash (hrest ▸ List.mem_cons_self)

/-- A path goes to an entry or back. -/
theorem isEntryName_of_mem_components {path : UnixPath} {name : String}
    (h : name ∈ path.components) (hup : name ≠ "..") : isEntryName name = true := by
  unfold UnixPath.components at h
  obtain ⟨hpiece, hname⟩ := List.mem_filter.1 h
  rw [Bool.and_eq_true, decide_eq_true_eq, decide_eq_true_eq] at hname
  refine isEntryName_iff.2 ⟨hname.1, hname.2, hup, ?_⟩
  obtain ⟨piece, hsegment, rfl⟩ := List.mem_map.1 hpiece
  rw [String.toList_ofList]
  exact notMem_of_mem_segments hsegment

/-! ## Places -/

namespace Place

variable {place up : Place} {name : String}

theorem isOutermost_of_mem (hup : up.isOutermost = true) (h : name ∈ up) :
    isOutermost [name] = true := by
  unfold isOutermost at hup ⊢
  rcases Bool.or_eq_true_iff.1 hup with heq | hall
  · rw [eq_of_beq heq, List.mem_singleton] at h
    subst h
    rfl
  · rw [eq_of_beq (List.all_eq_true.1 hall name h)]
    rfl

theorem isOutermost_of_isEntryName (h : isEntryName name = true) : isOutermost [name] = false := by
  obtain ⟨-, -, hup, hslash⟩ := isEntryName_iff.1 h
  have hroot : name ≠ "/" := by
    rintro rfl
    exact hslash (by decide)
  simp [isOutermost, hroot, hup]

theorem isOutermost_dropLast (h : up.isOutermost = true) : isOutermost up.dropLast = true := by
  unfold isOutermost at h ⊢
  rcases Bool.or_eq_true_iff.1 h with heq | hall
  · rw [eq_of_beq heq]
    rfl
  · refine Bool.or_eq_true_iff.2 (Or.inr (List.all_eq_true.2 fun name hname => ?_))
    exact List.all_eq_true.1 hall name (List.dropLast_subset _ hname)

/-- An outermost directory and names of entries that lead on from it. -/
def IsResolved (place : Place) : Prop :=
  ∃ up names, up.isOutermost = true ∧ up ++ names = place ∧ ∀ name ∈ names, isEntryName name = true

theorem IsResolved.of_isOutermost (h : place.isOutermost = true) : place.IsResolved :=
  ⟨place, [], h, List.append_nil _, nofun⟩

theorem IsResolved.of_forall (h : ∀ name ∈ place, isEntryName name = true) : place.IsResolved :=
  ⟨[], place, rfl, rfl, h⟩

theorem IsResolved.concat (h : place.IsResolved) (hname : isEntryName name = true) :
    (place ++ [name]).IsResolved := by
  obtain ⟨up, names, hup, rfl, hnames⟩ := h
  refine ⟨up, names ++ [name], hup, (List.append_assoc _ _ _).symm, ?_⟩
  exact List.forall_mem_append.2 ⟨hnames, List.forall_mem_singleton.2 hname⟩

theorem IsResolved.dropLast (h : place.IsResolved) : IsResolved place.dropLast := by
  obtain ⟨up, names, hup, rfl, hnames⟩ := h
  by_cases hempty : names = []
  · rw [hempty, List.append_nil]
    exact .of_isOutermost (isOutermost_dropLast hup)
  · rw [List.dropLast_append_of_ne_nil hempty]
    exact ⟨up, names.dropLast, hup, rfl, fun name hname => hnames name (List.dropLast_subset _ hname)⟩

/-- Names that lead down from anywhere lead to entries, if the first leads down. -/
theorem IsResolved.isEntryName_of_append {root names : Place} (h : IsResolved (root ++ names))
    (hhead : ∀ name ∈ names.head?, isOutermost [name] = false) :
    ∀ name ∈ names, isEntryName name = true := by
  obtain ⟨up, inner, hup, heq, hinner⟩ := h
  rcases List.append_eq_append_iff.1 heq with ⟨front, rfl, rfl⟩ | ⟨back, rfl, rfl⟩
  · exact (List.forall_mem_append.1 hinner).2
  · cases back with
    | nil => exact hinner
    | cons first back =>
      have hfirst := isOutermost_of_mem hup (List.mem_append_right root List.mem_cons_self)
      rw [hhead first rfl] at hfirst
      cases hfirst

end Place

namespace FileTree

/-! ## Paths -/

/-- One name leads down, or back, or from an outermost directory to one. -/
theorem resolveNames_singleton (base : Place) (name : String) :
    name ≠ ".." ∧ resolveNames base [name] = base ++ [name] ∨
      resolveNames base [name] = base ∨
      (base ++ [".."]).isOutermost = true ∧ resolveNames base [name] = base ++ [".."] ∨
      resolveNames base [name] = base.dropLast := by
  unfold resolveNames
  split
  · rename_i hup
    exact Or.inl ⟨hup, rfl⟩
  · split
    · exact Or.inr (Or.inl rfl)
    · rename_i hroot
      split
      · rename_i houter
        refine Or.inr (Or.inr (Or.inl ⟨?_, rfl⟩))
        have hall := (Bool.or_eq_true_iff.1 houter).resolve_left (by simpa using hroot)
        unfold Place.isOutermost
        rw [List.all_append, hall]
        exact Bool.or_true _
      · exact Or.inr (Or.inr (Or.inr rfl))

theorem isResolved_resolveNames_singleton {base : Place} {name : String} (h : base.IsResolved)
    (hname : name ≠ ".." → isEntryName name = true) : (resolveNames base [name]).IsResolved := by
  rcases resolveNames_singleton base name with ⟨hup, heq⟩ | heq | ⟨houter, heq⟩ | heq
  · rw [heq]
    exact h.concat (hname hup)
  · rw [heq]
    exact h
  · rw [heq]
    exact .of_isOutermost houter
  · rw [heq]
    exact h.dropLast

theorem resolveNames_cons (base : Place) (name : String) (names : List String) :
    resolveNames base (name :: names) = resolveNames (resolveNames base [name]) names :=
  resolveNames_append base [name] names

theorem isResolved_resolveNames {base : Place} {names : List String} (h : base.IsResolved)
    (hnames : ∀ name ∈ names, name ≠ ".." → isEntryName name = true) :
    (resolveNames base names).IsResolved := by
  induction names generalizing base with
  | nil => exact h
  | cons name names ih =>
    obtain ⟨hname, hnames⟩ := List.forall_mem_cons.1 hnames
    rw [resolveNames_cons]
    exact ih (isResolved_resolveNames_singleton h hname) hnames

theorem isResolved_startOf (path : UnixPath) : (startOf path).IsResolved := by
  unfold startOf
  split
  · exact .of_isOutermost rfl
  · exact .of_isOutermost rfl

theorem isResolved_placeOf (path : UnixPath) : (placeOf path).IsResolved :=
  isResolved_resolveNames (isResolved_startOf path) fun _ => isEntryName_of_mem_components

theorem beginnings_cons {α : Type} (x : α) (xs : List α) :
    beginnings (x :: xs) = [] :: (beginnings xs).map (x :: ·) := by
  unfold beginnings
  rw [List.length_cons, List.range_succ_eq_map, List.map_cons, List.map_map, List.map_map]
  rfl

/-! ## Trees -/

/-- Every place has one entry, with names that lead there, and lies in a directory. -/
structure WellFormed (tree : FileTree) : Prop where
  once : (tree.entries.map (·.1)).Nodup
  resolved : ∀ found ∈ tree.entries, found.1.IsResolved
  inside : ∀ found ∈ tree.entries, tree.entry? found.1.dropLast = some .directory

theorem mem_put {place : Place} {entry : Entry} {entries : List (Place × Entry)}
    {found : Place × Entry} (h : found ∈ put place entry entries) :
    found = (place, entry) ∨ found ∈ entries := by
  induction entries with
  | nil => exact Or.inl (List.mem_singleton.1 h)
  | cons first rest ih =>
    obtain ⟨p, e⟩ := first
    rw [put] at h
    split at h
    · rename_i hp
      rcases List.mem_cons.1 h with rfl | h
      · exact Or.inl (hp ▸ rfl)
      · exact Or.inr (List.mem_cons_of_mem _ h)
    · rcases List.mem_cons.1 h with rfl | h
      · exact Or.inr List.mem_cons_self
      · exact (ih h).imp_right (List.mem_cons_of_mem _)

theorem nodup_put {place : Place} {entry : Entry} {entries : List (Place × Entry)}
    (h : (entries.map (·.1)).Nodup) : ((put place entry entries).map (·.1)).Nodup := by
  induction entries with
  | nil => exact List.nodup_singleton _
  | cons first rest ih =>
    obtain ⟨p, e⟩ := first
    rw [put]
    split
    · exact h
    · rename_i hp
      obtain ⟨hnotMem, hrest⟩ := List.nodup_cons.1 h
      refine List.nodup_cons.2 ⟨fun hmem => ?_, ih hrest⟩
      obtain ⟨found, hfound, heq⟩ := List.mem_map.1 hmem
      rcases mem_put hfound with rfl | hfound
      · exact hp heq.symm
      · exact hnotMem (List.mem_map.2 ⟨found, hfound, heq⟩)

namespace WellFormed

variable {tree made after : FileTree} {place : Place}

/-- A directory lies in a directory. -/
theorem directory_dropLast (h : tree.WellFormed) (hplace : tree.entry? place = some .directory) :
    tree.entry? place.dropLast = some .directory := by
  unfold entry? at hplace
  split at hplace
  · rename_i houter
    unfold entry?
    rw [if_pos (Place.isOutermost_dropLast houter)]
  · obtain ⟨⟨p, e⟩, hfind, -⟩ := Option.map_eq_some_iff.1 hplace
    obtain rfl : p = place := by simpa using List.find?_some hfind
    exact h.inside _ (List.mem_of_find?_eq_some hfind)

/-- A new entry in a directory, or a new text of a file. -/
theorem put (h : tree.WellFormed) (hplace : place.IsResolved)
    (hup : tree.entry? place.dropLast = some .directory)
    (hfree : tree.entry? place ≠ some .directory) (entry : Entry) :
    (FileTree.mk (FileTree.put place entry tree.entries)).WellFormed := by
  have hkept : ∀ q, tree.entry? q = some .directory →
      FileTree.entry? (FileTree.mk (FileTree.put place entry tree.entries)) q =
        some .directory := by
    intro q hq
    have hne : q ≠ place := fun heq => hfree (heq ▸ hq)
    rw [entry?_put (isOutermost_eq_false hfree), if_neg hne, hq]
  constructor
  case once => exact nodup_put h.once
  case resolved =>
    intro found hfound
    rcases mem_put hfound with rfl | hfound
    · exact hplace
    · exact h.resolved found hfound
  case inside =>
    intro found hfound
    rcases mem_put hfound with rfl | hfound
    · exact hkept _ hup
    · exact hkept _ (h.inside found hfound)

theorem makeDirectory (h : tree.WellFormed) (hplace : place.IsResolved)
    (hup : tree.entry? place.dropLast = some .directory)
    (hmade : tree.makeDirectory place = some made) :
    made.WellFormed ∧ made.entry? place = some .directory := by
  rcases makeDirectory_eq_some hmade with ⟨hdirectory, rfl⟩ | ⟨hnone, -, rfl⟩
  · exact ⟨h, hdirectory⟩
  · have hfree : tree.entry? place ≠ some .directory := by rw [hnone]; exact nofun
    refine ⟨h.put hplace hup hfree .directory, ?_⟩
    rw [entry?_put (isOutermost_eq_false hfree), if_pos rfl]

/-- A way leads on from directory to directory. -/
theorem makeWay {base : Place} {names : List String} (h : tree.WellFormed) (hbase : base.IsResolved)
    (hup : tree.entry? base.dropLast = some .directory)
    (hnames : ∀ name ∈ names, name ≠ ".." → isEntryName name = true)
    (hmade : ((beginnings names).map (resolveNames base)).foldlM FileTree.makeDirectory tree =
      some made) : made.WellFormed := by
  induction names generalizing tree base with
  | nil =>
    rw [show beginnings ([] : List String) = [[]] from rfl, List.map_singleton, List.foldlM_cons]
      at hmade
    obtain ⟨entered, hentered, hmade⟩ := Option.bind_eq_some_iff.1 hmade
    obtain rfl : entered = made := Option.some.inj hmade
    exact (h.makeDirectory hbase hup hentered).1
  | cons name names ih =>
    obtain ⟨hname, hnames⟩ := List.forall_mem_cons.1 hnames
    rw [beginnings_cons, List.map_cons, List.map_map, List.foldlM_cons] at hmade
    obtain ⟨entered, hentered, hmade⟩ := Option.bind_eq_some_iff.1 hmade
    obtain ⟨hentered, hdirectory⟩ := h.makeDirectory hbase hup hentered
    refine ih hentered (isResolved_resolveNames_singleton hbase hname) ?_ hnames ?_
    · rcases resolveNames_singleton base name with ⟨-, heq⟩ | heq | ⟨-, heq⟩ | heq
      · rw [heq, List.dropLast_concat, hdirectory]
      · rw [heq, hentered.directory_dropLast hdirectory]
      · rw [heq, List.dropLast_concat, hdirectory]
      · rw [heq, hentered.directory_dropLast (hentered.directory_dropLast hdirectory)]
    · rw [← hmade]
      refine congrArg (fun places => List.foldlM FileTree.makeDirectory entered places) ?_
      exact List.map_congr_left fun front _ => (resolveNames_cons base name front).symm

theorem of_isReadied {path : UnixPath} (h : tree.WellFormed) (hmade : tree.IsReadied path made) :
    made.WellFormed := by
  rcases hmade with ⟨-, rfl⟩ | ⟨parent, -, hmade⟩
  · exact h
  · unfold makeDirectories at hmade
    split at hmade
    · refine h.makeWay (isResolved_startOf parent) ?_ (fun _ => isEntryName_of_mem_components) hmade
      unfold startOf
      split
      · rfl
      · rfl
    · cases hmade

theorem writeFile {path : UnixPath} {text : String} (h : tree.WellFormed)
    (hafter : tree.writeFile (placeOf path) text = some after) : after.WellFormed := by
  have hup : tree.entry? (placeOf path).dropLast = some .directory := by
    unfold FileTree.writeFile at hafter
    split at hafter
    · cases hafter
    · assumption
    · assumption
    · cases hafter
  obtain ⟨hfree, rfl⟩ := writeFile_eq_some hafter
  exact h.put (isResolved_placeOf path) hup hfree _

theorem writeText {path : UnixPath} {text : String} {outcome : Except FileError Unit}
    (h : tree.WellFormed) (hrun : tree.writeText path text = (after, outcome)) :
    after.WellFormed := by
  rcases writeText_cases tree path text with
    ⟨made, after', hmade, -, -, hafter, heq⟩ | ⟨made, e, hmade, heq⟩
  · obtain rfl : after' = after := congrArg Prod.fst (heq.symm.trans hrun)
    exact (h.of_isReadied hmade).writeFile hafter
  · obtain rfl : made = after := congrArg Prod.fst (heq.symm.trans hrun)
    rcases hmade with rfl | hmade
    · exact h
    · exact h.of_isReadied hmade

/-- **Writing keeps trees well-formed**, whether the run comes to its end or not. -/
theorem writeTexts {texts : List (UnixPath × String)} {outcome : Except FileError Unit}
    (h : tree.WellFormed) (hrun : tree.writeTexts texts = (after, outcome)) : after.WellFormed := by
  induction texts generalizing tree with
  | nil =>
    obtain rfl : tree = after := congrArg Prod.fst hrun
    exact h
  | cons first rest ih =>
    obtain ⟨path, text⟩ := first
    rw [FileTree.writeTexts] at hrun
    split at hrun
    · rename_i between hfirst
      exact ih (h.writeText hfirst) hrun
    · rename_i between e hfirst
      obtain rfl : between = after := congrArg Prod.fst hrun
      exact h.writeText hfirst

theorem generate (h : tree.WellFormed) (T : Taxonomy) (settings : Settings) (out : UnixPath)
    (print : Json → String) :
    (T.generate settings tree out print).1.WellFormed := by
  unfold Taxonomy.generate writeDocuments
  exact h.writeTexts rfl

theorem writeRedirects (h : tree.WellFormed) (root : UnixPath) :
    ( tree.writeRedirects root).1.WellFormed := by
  unfold FileTree.writeRedirects
  dsimp only
  split
  · exact h
  · exact h
  · unfold writeRedirectsAlong
    exact h.writeTexts rfl

end WellFormed

/-! ## Walks -/

variable {tree : FileTree} {root : Place}

theorem mem_below_iff {found : Place × Entry} :
    found ∈ tree.below root ↔ (root ++ found.1, found.2) ∈ tree.entries ∧ found.1 ≠ [] ∧
      ∀ name ∈ found.1.head?, Place.isOutermost [name] = false := by
  unfold below
  rw [List.mem_filterMap]
  constructor
  · rintro ⟨⟨p, e⟩, hmem, h⟩
    obtain ⟨names, hnames, rfl⟩ := Option.map_eq_some_iff.1 h
    obtain ⟨rfl, hne, hhead⟩ := namesBelow_eq_some_iff.1 hnames
    exact ⟨hmem, hne, hhead⟩
  · rintro ⟨hmem, hne, hhead⟩
    exact ⟨_, hmem, by rw [namesBelow_eq_some_iff.2 ⟨rfl, hne, hhead⟩]; rfl⟩

theorem WellFormed.pairwise_below (h : tree.WellFormed) (root : Place) :
    (tree.below root).Pairwise fun a b => a.1 ≠ b.1 := by
  refine List.pairwise_filterMap.2 ((List.pairwise_map.1 h.once).imp ?_)
  rintro ⟨p, e⟩ ⟨p', e'⟩ hne found hfound found' hfound' heq
  obtain ⟨names, hnames, rfl⟩ := Option.map_eq_some_iff.1 hfound
  obtain ⟨names', hnames', rfl⟩ := Option.map_eq_some_iff.1 hfound'
  obtain rfl : names = names' := heq
  exact hne ((namesBelow_eq_some_iff.1 hnames).1.symm.trans (namesBelow_eq_some_iff.1 hnames').1)

theorem WellFormed.eq_of_mem_below (h : tree.WellFormed) {names : Place} {e e' : Entry}
    (he : (names, e) ∈ tree.below root) (he' : (names, e') ∈ tree.below root) : e = e' := by
  have hmem : (root ++ names, e) ∈ tree.entries := (mem_below_iff.1 he).1
  have hmem' : (root ++ names, e') ∈ tree.entries := (mem_below_iff.1 he').1
  exact congrArg Prod.snd (List.inj_on_of_nodup_map h.once hmem hmem' rfl)

theorem WellFormed.named_below (h : tree.WellFormed) {found : Place × Entry}
    (hfound : found ∈ tree.below root) : ∀ name ∈ found.1, isEntryName name = true := by
  obtain ⟨hmem, -, hhead⟩ := mem_below_iff.1 hfound
  exact (h.resolved _ hmem).isEntryName_of_append hhead

/-- Names of entries lead to no outermost place. -/
theorem isOutermost_append (root : Place) {names : Place} (hne : names ≠ [])
    (hnames : ∀ name ∈ names, isEntryName name = true) :
    Place.isOutermost (root ++ names) = false := by
  obtain ⟨name, hname⟩ := List.exists_mem_of_ne_nil names hne
  rw [← Bool.not_eq_true]
  intro houter
  have hup := Place.isOutermost_of_mem houter (List.mem_append_right root hname)
  rw [Place.isOutermost_of_isEntryName (hnames name hname)] at hup
  cases hup

theorem mem_below_of_entry?_eq_some {names : Place} {e : Entry} (hne : names ≠ [])
    (hnames : ∀ name ∈ names, isEntryName name = true)
    (h : tree.entry? (root ++ names) = some e) : (names, e) ∈ tree.below root := by
  unfold entry? at h
  rw [if_neg (by rw [isOutermost_append root hne hnames]; exact nofun)] at h
  obtain ⟨⟨p, e'⟩, hfind, rfl⟩ := Option.map_eq_some_iff.1 h
  obtain rfl : p = root ++ names := by simpa using List.find?_some hfind
  refine mem_below_iff.2 ⟨List.mem_of_find?_eq_some hfind, hne, fun name hname => ?_⟩
  exact Place.isOutermost_of_isEntryName (hnames name (List.mem_of_mem_head? hname))

theorem WellFormed.entry?_of_mem_below (h : tree.WellFormed) {names : Place} {e : Entry}
    (he : (names, e) ∈ tree.below root) : tree.entry? (root ++ names) = some e := by
  obtain ⟨hmem, hne, -⟩ := mem_below_iff.1 he
  have houter : Place.isOutermost (root ++ names) = false :=
    isOutermost_append root hne (h.named_below he)
  unfold entry?
  rw [if_neg (by rw [houter]; exact nofun), Option.map_eq_some_iff]
  exact ⟨_, (find?_key_eq_some_iff h.once).2 ⟨hmem, rfl⟩, rfl⟩

theorem WellFormed.mem_below_iff_entry (h : tree.WellFormed) {names : Place} {e : Entry} :
    (names, e) ∈ tree.below root ↔ names ≠ [] ∧ (∀ name ∈ names, isEntryName name = true) ∧
      tree.entry? (root ++ names) = some e :=
  ⟨fun he => ⟨(mem_below_iff.1 he).2.1, h.named_below he, h.entry?_of_mem_below he⟩,
    fun ⟨hne, hnames, hentry⟩ => mem_below_of_entry?_eq_some hne hnames hentry⟩

/-- Directories lead to whatever lies below. -/
theorem WellFormed.directory_of_prefix (h : tree.WellFormed) {names front : Place} {e : Entry}
    (he : (names, e) ∈ tree.below root) (hfront : front <+: names) (hne : front ≠ names) :
    tree.entry? (root ++ front) = some .directory := by
  induction names using List.reverseRecOn generalizing e with
  | nil => exact absurd (List.prefix_nil.1 hfront) hne
  | append_singleton names name ih =>
    have hnames := h.named_below he
    have hinside := h.inside _ (mem_below_iff.1 he).1
    dsimp only at hinside
    rw [← List.append_assoc, List.dropLast_concat] at hinside
    have hfront' : front <+: names := (List.prefix_concat_iff.1 hfront).resolve_left hne
    by_cases heq : front = names
    · rw [heq]
      exact hinside
    · have hempty : names ≠ [] := fun hempty => heq (by
        rw [hempty] at hfront' ⊢
        exact List.prefix_nil.1 hfront')
      refine ih (mem_below_of_entry?_eq_some hempty ?_ hinside) hfront' heq
      exact (List.forall_mem_append.1 hnames).1

/-- Where something lies below, there is a directory. -/
theorem WellFormed.below_eq_nil (h : tree.WellFormed)
    (hroot : tree.entry? root ≠ some .directory) : tree.below root = [] := by
  refine List.eq_nil_iff_forall_not_mem.2 fun found hfound => hroot ?_
  have hne : [] ≠ found.1 := (mem_below_iff.1 hfound).2.1.symm
  have hdirectory := h.directory_of_prefix hfound (List.nil_prefix (l := found.1)) hne
  rwa [List.append_nil] at hdirectory

end FileTree

end TaxonomyPress
