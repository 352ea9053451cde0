import TaxonomyPress.Proofs.TreeChanges

/-!
# When writing succeeds

* `FileTree.Enterable` : a place that is a directory, or can become one
  (`FileTree.exists_makeDirectories`);
* `FileTree.Writable` : a path at which a new file can be written, which changes elsewhere keep;
* `FileTree.exists_writeTexts` : a run comes to its end if no file is in the way of another;
* `FileTree.Room` : a directory with nothing below it, where safe paths are writable
  (`FileTree.Room.writable`);
* `FileTree.filesBelow` : the files below a place.
-/

namespace TaxonomyPress

namespace FileTree

variable {tree before after : FileTree} {ways written : Place → Prop} {path out : UnixPath}

/-! ## Directories -/

/-- A directory, or a free place with a name that a directory can have. -/
def Enterable (tree : FileTree) (place : Place) : Prop :=
  tree.entry? place = some .directory ∨
    tree.entry? place = none ∧ isName (place.getLastD "") = true

instance (tree : FileTree) (place : Place) : Decidable (tree.Enterable place) :=
  inferInstanceAs (Decidable (_ ∨ _))

theorem Enterable.of_changes {place : Place} (hplace : before.Enterable place)
    (h : before.Changes after ways written) (hwritten : ¬ written place) :
    after.Enterable place := by
  rcases hplace with hplace | ⟨hplace, hname⟩
  · exact Or.inl (h.directory hplace)
  · rcases h.free hplace hwritten with hfree | hdirectory
    · exact Or.inr ⟨hfree, hname⟩
    · exact Or.inl hdirectory

theorem exists_makeDirectory {place : Place} (h : tree.Enterable place) :
    ∃ made, tree.makeDirectory place = some made ∧ made.entry? place = some .directory := by
  rcases h with h | ⟨h, hname⟩
  · exact ⟨tree, by simp [makeDirectory, h], h⟩
  · refine ⟨⟨put place .directory tree.entries⟩, by simp only [makeDirectory, h, hname]; rfl, ?_⟩
    rw [entry?_put (isOutermost_eq_false (by rw [h]; exact nofun)), if_pos rfl]

theorem exists_makeDirectories (hshort : isShort path = true)
    (h : ∀ place ∈ waypoints path, tree.Enterable place) :
    ∃ made, tree.makeDirectories path = some made ∧
      ∀ place ∈ waypoints path, made.entry? place = some .directory := by
  suffices hplaces : ∃ made, (waypoints path).foldlM makeDirectory tree = some made ∧
      (∀ place, tree.entry? place = some .directory → made.entry? place = some .directory) ∧
      ∀ place ∈ waypoints path, made.entry? place = some .directory by
    obtain ⟨made, hmade, -, hdirectory⟩ := hplaces
    exact ⟨made, by unfold makeDirectories; rw [if_pos hshort, hmade], hdirectory⟩
  revert h
  generalize waypoints path = places
  intro h
  induction places generalizing tree with
  | nil => exact ⟨tree, rfl, fun _ hplace => hplace, nofun⟩
  | cons place places ih =>
    obtain ⟨between, hbetween, hdirectory⟩ := exists_makeDirectory (h place List.mem_cons_self)
    have hchanges := changes_makeDirectory hbetween fun _ => False
    obtain ⟨made, hmade, hkept, hrest⟩ := ih fun p hp =>
      (h p (List.mem_cons_of_mem _ hp)).of_changes hchanges id
    refine ⟨made, ?_, fun p hp => hkept p (hchanges.directory hp), fun p hp => ?_⟩
    · rw [List.foldlM_cons, hbetween]
      exact hmade
    · rcases List.mem_cons.1 hp with rfl | hp
      · exact hkept p hdirectory
      · exact hrest p hp

/-! ## Files -/

/-- A path at which a new file can be written: what leads there can be entered, and the place
itself is free and none of its own ways. -/
structure Writable (tree : FileTree) (path : UnixPath) : Prop where
  names : path.components ≠ []
  ending : endsInName path = true
  short : isShort path = true
  ways : ∀ place, IsWay path place → tree.Enterable place
  new : tree.entry? (placeOf path) = none
  name : isName ((placeOf path).getLastD "") = true
  apart : ¬ IsWay path (placeOf path)
  parent : IsWay path (placeOf path).dropLast

/-- The way to a file goes through all places of its path but the last. -/
theorem waypoints_parent {parent : UnixPath} (hparent : path.parent = some parent)
    (hnames : path.components ≠ []) : waypoints parent = (waypoints path).dropLast := by
  have hbeginnings :
      (beginnings path.components).dropLast = beginnings path.components.dropLast := by
    rcases List.eq_nil_or_concat path.components with heq | ⟨front, name, heq⟩
    · exact absurd heq hnames
    · rw [List.concat_eq_append] at heq
      unfold beginnings
      rw [heq, List.dropLast_concat, List.length_append, List.length_singleton, List.range_succ,
        List.map_append, List.map_singleton, List.dropLast_concat]
      refine List.map_congr_left fun n hn => ?_
      exact List.take_append_of_le_length (Nat.le_of_lt_succ (List.mem_range.1 hn))
  unfold waypoints
  rw [UnixPath.components_parent hparent, startOf_parent hparent, ← hbeginnings, List.map_dropLast]

/-- A path that ends in a name leads one step on from the directory that it lies in. -/
theorem placeOf_concat {front : List String} {name : String}
    (h : path.components = front ++ [name]) (hup : name ≠ "..") :
    placeOf path = resolveNames (startOf path) front ++ [name] := by
  unfold placeOf
  rw [h, resolveNames_append, resolveNames, if_pos hup, resolveNames]

/-- The last place on the way is the directory in which the file lies. -/
theorem isWay_dropLast {front : List String} {name : String}
    (h : path.components = front ++ [name]) (hup : name ≠ "..") :
    IsWay path (placeOf path).dropLast := by
  cases hparent : path.parent with
  | none =>
    have hnil := UnixPath.parent_eq_none hparent
    rw [h] at hnil
    exact absurd hnil (List.append_ne_nil_of_right_ne_nil _ (List.cons_ne_nil _ _))
  | some parent =>
    refine ⟨parent, hparent, mem_waypoints_iff.2 ⟨parent.components, List.prefix_refl _, ?_⟩⟩
    rw [UnixPath.components_parent hparent, startOf_parent hparent, placeOf_concat h hup, h,
      List.dropLast_concat, List.dropLast_concat]

theorem isShort_parent {parent : UnixPath} (hparent : path.parent = some parent)
    (h : isShort path = true) : isShort parent = true := by
  obtain ⟨more, hmore, -⟩ := UnixPath.exists_text_parent hparent
  unfold isShort at h ⊢
  rw [decide_eq_true_eq] at h ⊢
  rw [hmore, String.utf8ByteSize_append] at h
  exact Nat.lt_of_le_of_lt (Nat.le_add_right _ _) h

theorem Writable.exists_writeText (h : tree.Writable path) (text : String) :
    ∃ after, tree.writeText path text = (after, .ok ()) := by
  cases hparent : path.parent with
  | none => exact absurd (UnixPath.parent_eq_none hparent) h.names
  | some parent =>
    obtain ⟨made, hmade, hdirectory⟩ := exists_makeDirectories (isShort_parent hparent h.short)
      fun place hplace => h.ways place ⟨parent, hparent, hplace⟩
    have hready : tree.IsReadied path made := Or.inr ⟨parent, hparent, hmade⟩
    have hopen : made.isPassable path = true := by
      unfold isPassable
      rw [h.short, Bool.true_and, List.all_eq_true]
      intro place hplace
      rw [← waypoints_parent hparent h.names] at hplace
      exact beq_iff_eq.2 (hdirectory place hplace)
    have hnew : made.entry? (placeOf path) = none := by
      rw [(hready.changes fun _ => False).eq_of_not_written id (Or.inl h.apart), h.new]
    have hdown : made.entry? (placeOf path).dropLast = some .directory := by
      obtain ⟨parent', hparent', hplace⟩ := h.parent
      obtain rfl : parent = parent' := Option.some.inj (hparent.symm.trans hparent')
      exact hdirectory _ hplace
    rw [hready.writeText_eq, h.ending, hopen]
    exact ⟨⟨put (placeOf path) (.file text) made.entries⟩, by
      simp only [writeFile, hnew, hdown, h.name, Bool.and_self, if_true]⟩

/-- Neither path leads through the other. -/
def PlacesApart (a b : UnixPath) : Prop :=
  placeOf a ≠ placeOf b ∧ ¬ IsWay a (placeOf b) ∧ ¬ IsWay b (placeOf a)

/-- A path stays writable while others are written. -/
theorem Writable.of_changes {other : UnixPath} (h : before.Writable path)
    (hchanges : before.Changes after (IsWay other) (· = placeOf other))
    (hapart : PlacesApart other path) : after.Writable path := by
  obtain ⟨hplace, hway, hway'⟩ := hapart
  constructor
  case names => exact h.names
  case ending => exact h.ending
  case short => exact h.short
  case ways =>
    intro place hplace'
    refine (h.ways place hplace').of_changes hchanges ?_
    rintro rfl
    exact hway' hplace'
  case new => rw [hchanges.eq_of_not_written hplace.symm (Or.inl hway), h.new]
  case name => exact h.name
  case apart => exact h.apart
  case parent => exact h.parent

/-- **A run comes to its end** if every path is writable and none leads through another. -/
theorem exists_writeTexts {texts : List (UnixPath × String)}
    (h : ∀ entry ∈ texts, tree.Writable entry.1)
    (hapart : texts.Pairwise fun a b => PlacesApart a.1 b.1) :
    ∃ after, tree.writeTexts texts = (after, .ok ()) := by
  induction texts generalizing tree with
  | nil => exact ⟨tree, rfl⟩
  | cons first rest ih =>
    obtain ⟨path, text⟩ := first
    obtain ⟨hfirst, hrest⟩ := List.pairwise_cons.1 hapart
    obtain ⟨between, hbetween⟩ := (h (path, text) List.mem_cons_self).exists_writeText text
    have hchanges := changes_writeText hbetween
    obtain ⟨after, hafter⟩ := ih (fun entry hentry =>
      (h entry (List.mem_cons_of_mem _ hentry)).of_changes hchanges (hfirst entry hentry)) hrest
    exact ⟨after, by rw [writeTexts, hbetween]; exact hafter⟩

/-! ## Below an empty directory -/

theorem components_ne_slash {name : String} (h : name ∈ path.components) : name ≠ "/" := by
  rintro rfl
  obtain ⟨piece, hpiece, heq⟩ := List.mem_map.1 (List.mem_filter.1 h).1
  apply notMem_of_mem_segments hpiece
  have hslash : piece = ['/'] := by simpa using congrArg String.toList heq
  rw [hslash]
  exact List.mem_singleton_self _

/-- No name in a safe path leads to an outermost place. -/
theorem isOutermost_component (hsafe : path.isSafe = true) {name : String}
    (h : name ∈ path.components) : Place.isOutermost [name] = false := by
  have hup : name ≠ ".." := fun heq => (isSafe_iff.1 hsafe).2 (heq ▸ h)
  simp [Place.isOutermost, components_ne_slash h, hup]

/-- Nothing lies below an empty directory. -/
theorem entry?_of_below_eq_nil (hempty : tree.below (placeOf out) = []) (hsafe : path.isSafe = true)
    {names : List String} (hne : names ≠ []) (hnames : names <+: path.components) :
    tree.entry? (placeOf out ++ names) = none := by
  obtain ⟨name, hname⟩ := List.exists_mem_of_ne_nil names hne
  have hup : name ≠ ".." := fun heq => (isSafe_iff.1 hsafe).2 (heq ▸ hnames.subset hname)
  have hmem : name ∈ placeOf out ++ names := List.mem_append_right _ hname
  have houter : (placeOf out ++ names).isOutermost = false := by
    unfold Place.isOutermost
    rw [Bool.or_eq_false_iff, beq_eq_false_iff_ne, List.all_eq_false]
    refine ⟨fun heq => ?_, name, hmem, by simpa using hup⟩
    rw [heq, List.mem_singleton] at hmem
    exact components_ne_slash (hnames.subset hname) hmem
  unfold entry?
  rw [if_neg (by rw [houter]; exact nofun), Option.map_eq_none_iff, List.find?_eq_none]
  intro entry hentry
  rw [decide_eq_true_eq]
  intro hplace
  unfold below at hempty
  have hnone := List.filterMap_eq_nil_iff.1 hempty entry hentry
  have hbelow : namesBelow (placeOf out) entry.1 = some names := by
    refine namesBelow_eq_some_iff.2 ⟨hplace.symm, hne, fun first hfirst => ?_⟩
    exact isOutermost_component hsafe (hnames.subset (List.mem_of_mem_head? hfirst))
  rw [hbelow] at hnone
  cases hnone

/-- What a run needs of the directory that it writes to: one can go there or make it, not by a way
that leads through what lies below, and nothing lies below. -/
structure Room (tree : FileTree) (out : UnixPath) : Prop where
  enterable : ∀ place ∈ waypoints out, tree.Enterable place
  outside : ∀ place ∈ waypoints out, ¬ Below out place
  empty : tree.below (placeOf out) = []

/-- Without `..` the way to a directory does not go through what is below it. -/
theorem not_below_of_mem_waypoints (hup : ".." ∉ out.components) {place : Place}
    (h : place ∈ waypoints out) : ¬ Below out place := by
  obtain ⟨front, hfront, rfl⟩ := mem_waypoints_iff.1 h
  rintro ⟨names, hne, heq⟩
  have hup' : ".." ∉ front := fun hmem => hup (hfront.subset hmem)
  unfold placeOf at heq
  rw [resolveNames_of_notMem _ hup', resolveNames_of_notMem _ hup, List.append_assoc,
    List.append_right_inj] at heq
  have hlength := hfront.length_le
  rw [heq, List.length_append] at hlength
  exact hne (List.eq_nil_of_length_eq_zero (by omega))

/-- A way to one safe path leads through another only if the names of the other begin it. -/
theorem not_isWay_join {a b : UnixPath} (houtside : ∀ place ∈ waypoints out, ¬ Below out place)
    (ha : a.isSafe = true) (hb : b.isSafe = true) (hane : a.components ≠ [])
    (hbne : b.components ≠ []) (hba : ¬ b.components <+: a.components.dropLast) :
    ¬ IsWay (out.join a) (placeOf (out.join b)) := by
  intro hway
  rcases hway.of_join ha hane with hout | ⟨names, -, hbegins, heq⟩
  · exact houtside _ hout ⟨b.components, hbne, placeOf_join hb⟩
  · rw [placeOf_join hb] at heq
    obtain rfl := List.append_cancel_left heq
    exact hba hbegins

/-- Safe paths are writable below an empty directory, if their names and texts are not too long. -/
theorem Room.writable (h : tree.Room out) (hsafe : path.isSafe = true)
    (hpath : path.components ≠ []) (hends : endsInName (out.join path) = true)
    (hshort : isShort (out.join path) = true)
    (hnames : ∀ name ∈ path.components, isName name = true) : tree.Writable (out.join path) := by
  have hname : ∀ {names : List String}, names ≠ [] → names <+: path.components →
      isName ((placeOf out ++ names).getLastD "") = true := by
    intro names hne hbegins
    rw [List.getLastD_eq_getLast?, List.getLast?_append, List.getLast?_eq_some_getLast hne]
    exact hnames _ (hbegins.subset (List.getLast_mem hne))
  have hplace : placeOf (out.join path) = placeOf out ++ path.components := placeOf_join hsafe
  constructor
  case names =>
    rw [components_join hsafe]
    exact List.append_ne_nil_of_right_ne_nil _ hpath
  case ending => exact hends
  case short => exact hshort
  case ways =>
    intro place hway
    rcases hway.of_join hsafe hpath with hout | ⟨names, hne, hbegins, rfl⟩
    · exact h.enterable place hout
    · have hbegins' := hbegins.trans (List.dropLast_prefix _)
      exact Or.inr ⟨entry?_of_below_eq_nil h.empty hsafe hne hbegins', hname hne hbegins'⟩
  case new =>
    rw [hplace]
    exact entry?_of_below_eq_nil h.empty hsafe hpath (List.prefix_refl _)
  case name =>
    rw [hplace]
    exact hname hpath (List.prefix_refl _)
  case apart =>
    refine not_isWay_join h.outside hsafe hsafe hpath hpath fun hbegins => ?_
    have hlength := hbegins.length_le
    rw [List.length_dropLast] at hlength
    have hpos := List.length_pos_iff.2 hpath
    omega
  case parent =>
    rcases List.eq_nil_or_concat path.components with hnil | ⟨front, name, hnames⟩
    · exact absurd hnil hpath
    · rw [List.concat_eq_append] at hnames
      have hup : name ≠ ".." := by
        rintro rfl
        exact (isSafe_iff.1 hsafe).2 (hnames ▸ List.mem_append_right _ List.mem_cons_self)
      have hcomponents : (out.join path).components = out.components ++ front ++ [name] := by
        rw [components_join hsafe, hnames, List.append_assoc]
      exact isWay_dropLast hcomponents hup

theorem placeOf_join_ne {a b : UnixPath} (ha : a.isSafe = true) (hb : b.isSafe = true)
    (hab : ¬ a.components <+: b.components) : placeOf (out.join a) ≠ placeOf (out.join b) := by
  intro heq
  rw [placeOf_join ha, placeOf_join hb] at heq
  exact hab ((List.append_cancel_left heq) ▸ List.prefix_refl _)

theorem placesApart_join {a b : UnixPath} (houtside : ∀ place ∈ waypoints out, ¬ Below out place)
    (ha : a.isSafe = true) (hb : b.isSafe = true) (hane : a.components ≠ [])
    (hbne : b.components ≠ []) (hab : ¬ a.components <+: b.components)
    (hba : ¬ b.components <+: a.components) : PlacesApart (out.join a) (out.join b) := by
  refine ⟨placeOf_join_ne ha hb hab,
    not_isWay_join houtside ha hb hane hbne fun hbegins => hba ?_,
    not_isWay_join houtside hb ha hbne hane fun hbegins => hab ?_⟩
  · exact hbegins.trans (List.dropLast_prefix _)
  · exact hbegins.trans (List.dropLast_prefix _)

/-! ## Files below a place -/

/-- The names that lead from `place` to a file below it, with the text of the file. -/
def fileFrom (place : Place) (file : Place × String) : Option (Place × String) :=
  (namesBelow place file.1).map fun names => (names, file.2)

/-- The files below a place with their texts. -/
def filesBelow (tree : FileTree) (place : Place) : List (Place × String) :=
  (tree.below place).filterMap fun (p, e) =>
    match e with
    | .file text => some (p, text)
    | .directory => none

theorem filesBelow_eq (tree : FileTree) (place : Place) :
    tree.filesBelow place = tree.files.filterMap (fileFrom place) := by
  unfold filesBelow below files
  rw [List.filterMap_filterMap, List.filterMap_filterMap]
  congr 1
  funext ⟨p, e⟩
  rcases hnames : namesBelow place p with _ | names
  all_goals cases e <;> simp [fileFrom, hnames]

theorem fileFrom_join (hsafe : path.isSafe = true) (hpath : path.components ≠ []) (text : String) :
    fileFrom (placeOf out) (placeOf (out.join path), text) = some (path.components, text) := by
  unfold fileFrom
  rw [namesBelow_eq_some_iff.2 ⟨(placeOf_join hsafe).symm, hpath, fun name hname =>
    isOutermost_component hsafe (List.mem_of_mem_head? hname)⟩]
  rfl

end FileTree

end TaxonomyPress
