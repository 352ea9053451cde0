import TaxonomyPress.Proofs.PathNames
import TaxonomyPress.Tree.FileTree

/-!
# What writing changes in a file tree

A run makes directories and writes files, and leaves everything else as it is.

* `FileTree.Changes` : at some places directories came to be, at others files were written;
* `FileTree.changes_writeTexts` : the directories lie on the ways to the files that are written;
* `FileTree.files_writeTexts` : new files come behind those that were there, each with its text
  (`FileTree.read?_writeTexts`);
* `FileTree.placeOf_join`, `FileTree.IsWay.of_join` : where a path without `..` leads, seen from
  another, and by which way.
-/

namespace TaxonomyPress

namespace FileTree

/-! ## Entries -/

theorem find?_put (place q : Place) (entry : Entry) (entries : List (Place × Entry)) :
    (put place entry entries).find? (·.1 = q) =
      if q = place then some (place, entry) else entries.find? (·.1 = q) := by
  induction entries with
  | nil =>
    by_cases hq : q = place
    · simp [put, hq]
    · simp [put, hq, Ne.symm hq]
  | cons first rest ih =>
    obtain ⟨p, e⟩ := first
    rw [put]
    by_cases hp : p = place
    · subst hp
      by_cases hq : q = p
      · simp [hq]
      · simp [hq, Ne.symm hq]
    · rw [if_neg hp, List.find?_cons, List.find?_cons, ih]
      by_cases hpq : p = q
      · subst hpq
        simp [hp]
      · simp [hpq]

theorem entry?_put {tree : FileTree} {place : Place} (hplace : place.isOutermost = false)
    (entry : Entry) (q : Place) :
    entry? (FileTree.mk (put place entry tree.entries)) q =
      if q = place then some entry else tree.entry? q := by
  unfold entry?
  rw [find?_put]
  by_cases hq : q = place
  · subst hq
    simp [hplace]
  · simp [hq]

theorem isOutermost_eq_false {tree : FileTree} {place : Place}
    (h : tree.entry? place ≠ some .directory) : place.isOutermost = false := by
  cases hplace : place.isOutermost with
  | false => rfl
  | true =>
    unfold entry? at h
    rw [if_pos hplace] at h
    exact absurd rfl h

/-- A new entry comes to lie behind all others. -/
theorem put_of_entry?_eq_none {tree : FileTree} {place : Place} (h : tree.entry? place = none)
    (entry : Entry) : put place entry tree.entries = tree.entries ++ [(place, entry)] := by
  have hplace : place.isOutermost = false := isOutermost_eq_false (by rw [h]; exact nofun)
  have hnew : ∀ e ∈ tree.entries, e.1 ≠ place := by
    unfold entry? at h
    rw [if_neg (by rw [hplace]; exact nofun), Option.map_eq_none_iff, List.find?_eq_none] at h
    intro e he
    simpa using h e he
  revert hnew
  generalize tree.entries = entries
  intro hnew
  induction entries with
  | nil => rfl
  | cons first rest ih =>
    rw [put, if_neg (hnew first List.mem_cons_self),
      ih fun e he => hnew e (List.mem_cons_of_mem _ he)]
    rfl

/-! ## Changes -/

/-- What may become of the entry at a place. -/
inductive Change (ways written : Place → Prop) (place : Place) :
    Option Entry → Option Entry → Prop where
  | same (entry : Option Entry) : Change ways written place entry entry
  | directory (way : ways place) : Change ways written place none (some .directory)
  | text (write : written place) {entry : Option Entry} (file : entry ≠ some .directory)
      (text : String) : Change ways written place entry (some (.file text))

/-- From `before` to `after`, places of `ways` became directories and places of `written` got
texts; all other entries are as they were. -/
def Changes (before after : FileTree) (ways written : Place → Prop) : Prop :=
  ∀ place, Change ways written place ( before.entry? place) ( after.entry? place)

variable {before between after : FileTree} {ways ways' written written' : Place → Prop}

theorem Changes.refl (tree : FileTree) (ways written : Place → Prop) :
    tree.Changes tree ways written := fun _ => .same _

theorem Changes.trans (h : before.Changes between ways written)
    (h' : between.Changes after ways written) : before.Changes after ways written := by
  intro place
  have hfirst := h place
  have hsecond := h' place
  revert hfirst hsecond
  generalize before.entry? place = e₁, between.entry? place = e₂, after.entry? place = e₃
  rintro (_ | way | ⟨write, hfile, text⟩) hsecond
  · exact hsecond
  · cases hsecond with
    | same => exact .directory way
    | text _ hfile => exact absurd rfl hfile
  · cases hsecond with
    | same => exact .text write hfile text
    | text _ _ text' => exact .text write hfile text'

theorem Changes.mono (h : before.Changes after ways written) (hways : ∀ p, ways p → ways' p)
    (hwritten : ∀ p, written p → written' p) : before.Changes after ways' written' := by
  intro place
  have hchange := h place
  revert hchange
  generalize before.entry? place = e₁, after.entry? place = e₂
  rintro (_ | way | ⟨write, hfile, text⟩)
  · exact .same _
  · exact .directory (hways place way)
  · exact .text (hwritten place write) hfile text

theorem Changes.directory (h : before.Changes after ways written) {place : Place}
    (hplace : before.entry? place = some .directory) : after.entry? place = some .directory := by
  have hchange := h place
  rw [hplace] at hchange
  generalize after.entry? place = e at hchange
  cases hchange with
  | same => rfl
  | text _ hfile => exact absurd rfl hfile

/-- Where nothing is written, no more can happen than that a directory comes to be. -/
theorem Changes.eq_or_directory (h : before.Changes after ways written) {place : Place}
    (hwritten : ¬ written place) : after.entry? place = before.entry? place ∨
      ways place ∧ before.entry? place = none ∧ after.entry? place = some .directory := by
  have hchange := h place
  revert hchange
  generalize before.entry? place = e₁, after.entry? place = e₂
  rintro (_ | way | ⟨write, -, -⟩)
  · exact Or.inl rfl
  · exact Or.inr ⟨way, rfl, rfl⟩
  · exact absurd write hwritten

theorem Changes.eq_of_not_written (h : before.Changes after ways written) {place : Place}
    (hwritten : ¬ written place) (hplace : ¬ ways place ∨ before.entry? place ≠ none) :
    after.entry? place = before.entry? place := by
  rcases h.eq_or_directory hwritten with heq | ⟨way, hnone, -⟩
  · exact heq
  · exact hplace.elim (absurd way) (absurd hnone)

/-- A free place stays free or becomes a directory, if nothing is written there. -/
theorem Changes.free (h : before.Changes after ways written) {place : Place}
    (hplace : before.entry? place = none) (hwritten : ¬ written place) :
    after.entry? place = none ∨ after.entry? place = some .directory :=
  (h.eq_or_directory hwritten).imp (fun heq => heq.trans hplace) fun hmade => hmade.2.2

/-- No file comes to be and none is lost where nothing is written. -/
theorem Changes.file_iff (h : before.Changes after ways written) {place : Place}
    (hwritten : ¬ written place) (text : String) :
    after.entry? place = some (.file text) ↔ before.entry? place = some (.file text) := by
  rcases h.eq_or_directory hwritten with heq | ⟨-, hnone, hdirectory⟩
  · rw [heq]
  · rw [hnone, hdirectory]
    exact ⟨nofun, nofun⟩

/-- A path that one can follow stays one. -/
theorem Changes.isPassable (h : before.Changes after ways written) {path : UnixPath}
    (hpath : before.isPassable path = true) : after.isPassable path = true := by
  unfold FileTree.isPassable at hpath ⊢
  rw [Bool.and_eq_true, List.all_eq_true] at hpath ⊢
  refine ⟨hpath.1, fun place hplace => ?_⟩
  rw [beq_iff_eq]
  exact h.directory (beq_iff_eq.1 (hpath.2 place hplace))

/-! ## Directories -/

theorem makeDirectory_eq_some {tree made : FileTree} {place : Place}
    (h : tree.makeDirectory place = some made) :
    tree.entry? place = some .directory ∧ made = tree ∨
      tree.entry? place = none ∧ isName (place.getLastD "") = true ∧
        made = ⟨put place .directory tree.entries⟩ := by
  unfold makeDirectory at h
  split at h
  · rename_i hplace
    exact Or.inl ⟨hplace, (Option.some.inj h).symm⟩
  · cases h
  · rename_i hplace
    split at h
    · rename_i hname
      exact Or.inr ⟨hplace, hname, (Option.some.inj h).symm⟩
    · cases h

theorem changes_makeDirectory {tree made : FileTree} {place : Place}
    (h : tree.makeDirectory place = some made) (written : Place → Prop) :
    tree.Changes made (· = place) written := by
  rcases makeDirectory_eq_some h with ⟨-, rfl⟩ | ⟨hnone, -, rfl⟩
  · exact .refl _ _ _
  · intro q
    rw [entry?_put (isOutermost_eq_false (by rw [hnone]; exact nofun))]
    split
    · rename_i hq
      rw [hq, hnone]
      exact .directory rfl
    · exact .same _

theorem files_makeDirectory {tree made : FileTree} {place : Place}
    (h : tree.makeDirectory place = some made) : made.files = tree.files := by
  rcases makeDirectory_eq_some h with ⟨-, rfl⟩ | ⟨hnone, -, rfl⟩
  · rfl
  · unfold files
    rw [put_of_entry?_eq_none hnone, List.filterMap_append]
    exact List.append_nil _

theorem makeDirectories_induction {motive : FileTree → FileTree → Prop} {path : UnixPath}
    {tree made : FileTree} (h : tree.makeDirectories path = some made)
    (refl : ∀ tree, motive tree tree)
    (step : ∀ {tree between made : FileTree} {place : Place}, place ∈ waypoints path →
      tree.makeDirectory place = some between → motive between made → motive tree made) :
    motive tree made := by
  unfold makeDirectories at h
  split at h
  · revert step
    generalize waypoints path = places at h
    induction places generalizing tree with
    | nil =>
      intro _
      obtain rfl : tree = made := Option.some.inj h
      exact refl tree
    | cons place places ih =>
      intro step
      rw [List.foldlM_cons] at h
      obtain ⟨between, hbetween, h⟩ := Option.bind_eq_some_iff.1 h
      refine step List.mem_cons_self hbetween (ih h fun hmem => step (List.mem_cons_of_mem _ hmem))
  · cases h

theorem changes_makeDirectories {tree made : FileTree} {path : UnixPath}
    (h : tree.makeDirectories path = some made) (written : Place → Prop) :
    tree.Changes made (· ∈ waypoints path) written := by
  refine makeDirectories_induction (motive := fun tree made =>
    tree.Changes made (· ∈ waypoints path) written) h (fun tree => .refl tree _ _) ?_
  intro tree between made place hplace hbetween ih
  have hstep := changes_makeDirectory hbetween written
  exact (hstep.mono (fun p hp => hp ▸ hplace) fun p hp => hp).trans ih

theorem files_makeDirectories {tree made : FileTree} {path : UnixPath}
    (h : tree.makeDirectories path = some made) : made.files = tree.files := by
  refine makeDirectories_induction (motive := fun tree made => made.files = tree.files) h
    (fun tree => rfl) ?_
  intro tree between made place _ hbetween ih
  exact ih.trans (files_makeDirectory hbetween)

/-! ## Files -/

theorem writeFile_eq_some {tree after : FileTree} {place : Place} {text : String}
    (h : tree.writeFile place text = some after) :
    tree.entry? place ≠ some .directory ∧ after = ⟨put place (.file text) tree.entries⟩ := by
  unfold writeFile at h
  split at h
  · cases h
  · rename_i hplace _
    rw [hplace]
    exact ⟨nofun, (Option.some.inj h).symm⟩
  · rename_i hplace _
    split at h
    · rw [hplace]
      exact ⟨nofun, (Option.some.inj h).symm⟩
    · cases h
  · cases h

theorem entry?_writeFile {tree after : FileTree} {place : Place} {text : String}
    (h : tree.writeFile place text = some after) (q : Place) :
    after.entry? q = if q = place then some (.file text) else tree.entry? q := by
  obtain ⟨hplace, rfl⟩ := writeFile_eq_some h
  exact entry?_put (isOutermost_eq_false hplace) _ q

theorem changes_writeFile {tree after : FileTree} {place : Place} {text : String}
    (h : tree.writeFile place text = some after) (ways : Place → Prop) :
    tree.Changes after ways (· = place) := by
  intro q
  rw [entry?_writeFile h]
  split
  · rename_i hq
    subst hq
    refine .text ?_ (writeFile_eq_some h).1 text
    rfl
  · exact .same _

theorem files_writeFile {tree after : FileTree} {place : Place} {text : String}
    (h : tree.writeFile place text = some after) (hnew : tree.entry? place = none) :
    after.files = tree.files ++ [(place, text)] := by
  obtain ⟨-, rfl⟩ := writeFile_eq_some h
  unfold files
  rw [put_of_entry?_eq_none hnew, List.filterMap_append]
  rfl

/-- `made` is `tree` with the directories in which `path` lies. -/
def IsReadied (tree : FileTree) (path : UnixPath) (made : FileTree) : Prop :=
  (path.parent = none ∧ tree = made) ∨
    ∃ parent, path.parent = some parent ∧ tree.makeDirectories parent = some made

/-- The directories on the way to the file of a path. -/
def IsWay (path : UnixPath) (place : Place) : Prop :=
  ∃ parent, path.parent = some parent ∧ place ∈ waypoints parent

theorem IsReadied.changes {tree made : FileTree} {path : UnixPath} (h : tree.IsReadied path made)
    (written : Place → Prop) : tree.Changes made (IsWay path) written := by
  rcases h with ⟨-, rfl⟩ | ⟨parent, hparent, hmade⟩
  · exact .refl _ _ _
  · exact (changes_makeDirectories hmade written).mono (fun p hp => ⟨parent, hparent, hp⟩)
      fun p hp => hp

theorem IsReadied.files_eq {tree made : FileTree} {path : UnixPath} (h : tree.IsReadied path made) :
    made.files = tree.files := by
  rcases h with ⟨-, rfl⟩ | ⟨parent, -, hmade⟩
  · rfl
  · exact files_makeDirectories hmade

theorem IsReadied.writeText_eq {tree made : FileTree} {path : UnixPath}
    (h : tree.IsReadied path made) (text : String) : tree.writeText path text =
      match if endsInName path && made.isPassable path then made.writeFile (placeOf path) text
        else none with
      | some after => (after, .ok ())
      | none => (made, .error (.cannotWrite path)) := by
  unfold writeText
  rcases h with ⟨hparent, rfl⟩ | ⟨parent, hparent, hmade⟩
  · generalize path.parent = above at hparent ⊢
    subst hparent
    rfl
  · generalize path.parent = above at hparent ⊢
    subst hparent
    dsimp only
    generalize tree.makeDirectories parent = entered at hmade ⊢
    subst hmade
    rfl

/-- Directories are made first. Then the file is written, or nothing more is. -/
theorem writeText_cases (tree : FileTree) (path : UnixPath) (text : String) :
    (∃ made after, tree.IsReadied path made ∧ endsInName path = true ∧
        made.isPassable path = true ∧ made.writeFile (placeOf path) text = some after ∧
        tree.writeText path text = (after, .ok ())) ∨
      ∃ made e, (tree = made ∨ tree.IsReadied path made) ∧
        tree.writeText path text = (made, .error e) := by
  have hready : (∃ made, tree.IsReadied path made) ∨
      ∃ parent, path.parent = some parent ∧ tree.makeDirectories parent = none := by
    cases hparent : path.parent with
    | none => exact Or.inl ⟨tree, Or.inl ⟨hparent, rfl⟩⟩
    | some parent =>
      cases hmade : tree.makeDirectories parent with
      | none => exact Or.inr ⟨parent, rfl, hmade⟩
      | some made => exact Or.inl ⟨made, Or.inr ⟨parent, hparent, hmade⟩⟩
  rcases hready with ⟨made, hmade⟩ | ⟨parent, hparent, hnone⟩
  · rw [hmade.writeText_eq]
    split
    · rename_i after hafter
      split at hafter
      · rename_i hopen
        rw [Bool.and_eq_true] at hopen
        exact Or.inl ⟨made, after, hmade, hopen.1, hopen.2, hafter, rfl⟩
      · cases hafter
    · exact Or.inr ⟨made, _, Or.inr hmade, rfl⟩
  · refine Or.inr ⟨tree, .cannotCreateDirectory parent, Or.inl rfl, ?_⟩
    unfold writeText
    rw [hparent]
    simp only [hnone]

theorem changes_writeText {tree after : FileTree} {path : UnixPath} {text : String}
    {outcome : Except FileError Unit} (h : tree.writeText path text = (after, outcome)) :
    tree.Changes after (IsWay path) (· = placeOf path) := by
  rcases writeText_cases tree path text with
    ⟨made, after', hmade, -, -, hafter, heq⟩ | ⟨made, e, hmade, heq⟩
  · obtain rfl : after' = after := congrArg Prod.fst (heq.symm.trans h)
    exact (hmade.changes _).trans (changes_writeFile hafter _)
  · obtain rfl : made = after := congrArg Prod.fst (heq.symm.trans h)
    rcases hmade with rfl | hmade
    · exact .refl _ _ _
    · exact hmade.changes _

/-- **A run changes** nothing but the places of the files and the ways there, whether it comes to
its end or not. -/
theorem changes_writeTexts {tree after : FileTree} {texts : List (UnixPath × String)}
    {outcome : Except FileError Unit} (h : tree.writeTexts texts = (after, outcome)) :
    tree.Changes after (fun place => ∃ entry ∈ texts, IsWay entry.1 place)
      (fun place => ∃ entry ∈ texts, place = placeOf entry.1) := by
  induction texts generalizing tree with
  | nil =>
    obtain rfl : tree = after := congrArg Prod.fst h
    exact .refl _ _ _
  | cons first rest ih =>
    obtain ⟨path, text⟩ := first
    have hself : (path, text) ∈ (path, text) :: rest := List.mem_cons_self
    rw [writeTexts] at h
    split at h
    · rename_i between heq
      refine ((changes_writeText heq).mono ?_ ?_).trans ((ih h).mono ?_ ?_)
      · exact fun place hplace => ⟨_, hself, hplace⟩
      · exact fun place hplace => ⟨_, hself, hplace⟩
      · rintro place ⟨entry, hentry, hplace⟩
        exact ⟨entry, List.mem_cons_of_mem _ hentry, hplace⟩
      · rintro place ⟨entry, hentry, hplace⟩
        exact ⟨entry, List.mem_cons_of_mem _ hentry, hplace⟩
    · rename_i between e heq
      obtain rfl : between = after := congrArg Prod.fst h
      refine (changes_writeText heq).mono ?_ ?_
      · exact fun place hplace => ⟨_, hself, hplace⟩
      · exact fun place hplace => ⟨_, hself, hplace⟩

/-! ## Runs that come to their end -/

theorem read?_eq_some_iff {tree : FileTree} {path : UnixPath} {text : String} :
    tree.read? path = some text ↔ endsInName path = true ∧ tree.isPassable path = true ∧
      tree.entry? (placeOf path) = some (.file text) := by
  unfold read?
  rw [← and_assoc, ← Bool.and_eq_true]
  cases endsInName path && tree.isPassable path with
  | false => exact ⟨nofun, nofun⟩
  | true =>
    rw [and_iff_right rfl]
    cases tree.entry? (placeOf path) with
    | none => exact ⟨nofun, nofun⟩
    | some entry =>
      cases entry with
      | directory => exact ⟨nofun, nofun⟩
      | file found =>
        show some found = some text ↔ some (Entry.file found) = some (.file text)
        rw [Option.some_inj, Option.some_inj, Entry.file.injEq]

theorem entry?_writeText {tree after : FileTree} {path : UnixPath} {text : String}
    (h : tree.writeText path text = (after, .ok ())) :
    tree.entry? (placeOf path) ≠ some .directory ∧
      after.entry? (placeOf path) = some (.file text) ∧ after.read? path = some text ∧
      ( tree.entry? (placeOf path) = none →
        after.files = tree.files ++ [(placeOf path, text)]) := by
  rcases writeText_cases tree path text with
    ⟨made, after', hmade, hends, hopen, hafter, heq⟩ | ⟨made, e, -, heq⟩
  · obtain rfl : after' = after := congrArg Prod.fst (heq.symm.trans h)
    have hplace : made.entry? (placeOf path) ≠ some .directory := (writeFile_eq_some hafter).1
    have hfile : after'.entry? (placeOf path) = some (.file text) := by
      rw [entry?_writeFile hafter, if_pos rfl]
    refine ⟨fun hdirectory => hplace ?_, hfile, ?_, fun hnone => ?_⟩
    · exact (hmade.changes fun _ => False).directory hdirectory
    · have hopen' := (changes_writeFile hafter fun _ => False).isPassable hopen
      exact read?_eq_some_iff.2 ⟨hends, hopen', hfile⟩
    · have hnew : made.entry? (placeOf path) = none :=
        ((hmade.changes fun _ => False).free hnone id).resolve_right hplace
      rw [files_writeFile hafter hnew, hmade.files_eq]
  · rw [h] at heq
    cases heq

theorem writeTexts_cons_eq_ok {tree after : FileTree} {path : UnixPath} {text : String}
    {rest : List (UnixPath × String)}
    (h : tree.writeTexts ((path, text) :: rest) = (after, .ok ())) :
    ∃ between, tree.writeText path text = (between, .ok ()) ∧
      between.writeTexts rest = (after, .ok ()) := by
  rw [writeTexts] at h
  split at h
  · rename_i between heq
    exact ⟨between, heq, h⟩
  · cases h

/-- No file comes to lie where a directory was. -/
theorem entry?_ne_of_writeTexts {tree after : FileTree} {texts : List (UnixPath × String)}
    (h : tree.writeTexts texts = (after, .ok ())) :
    ∀ entry ∈ texts, tree.entry? (placeOf entry.1) ≠ some .directory := by
  induction texts generalizing tree with
  | nil => exact nofun
  | cons first rest ih =>
    obtain ⟨path, text⟩ := first
    obtain ⟨between, hfirst, hrest⟩ := writeTexts_cons_eq_ok h
    have hchanges := changes_writeText hfirst
    intro entry hentry
    rcases List.mem_cons.1 hentry with rfl | hentry
    · exact (entry?_writeText hfirst).1
    · exact fun hdirectory => ih hrest entry hentry (hchanges.directory hdirectory)

/-- **New files**: a run that comes to its end puts them behind those that were there. -/
theorem files_writeTexts {tree after : FileTree} {texts : List (UnixPath × String)}
    (h : tree.writeTexts texts = (after, .ok ()))
    (hplaces : texts.Pairwise fun a b => placeOf a.1 ≠ placeOf b.1)
    (hnew : ∀ entry ∈ texts, tree.entry? (placeOf entry.1) = none) :
    after.files = tree.files ++ texts.map fun entry => (placeOf entry.1, entry.2) := by
  induction texts generalizing tree with
  | nil =>
    obtain rfl : tree = after := congrArg Prod.fst h
    exact (List.append_nil _).symm
  | cons first rest ih =>
    obtain ⟨path, text⟩ := first
    obtain ⟨hfirst, hplaces⟩ := List.pairwise_cons.1 hplaces
    obtain ⟨between, hbetween, hrest⟩ := writeTexts_cons_eq_ok h
    have hchanges := changes_writeText hbetween
    have hnew' : ∀ entry ∈ rest, between.entry? (placeOf entry.1) = none := by
      intro entry hentry
      have hfree := hchanges.free (hnew entry (List.mem_cons_of_mem _ hentry))
        (Ne.symm (hfirst entry hentry))
      exact hfree.resolve_right (entry?_ne_of_writeTexts hrest entry hentry)
    have hnone : tree.entry? (placeOf path) = none := hnew (path, text) List.mem_cons_self
    rw [ih hrest hplaces hnew', (entry?_writeText hbetween).2.2.2 hnone, List.append_assoc]
    rfl

/-- A run that comes to its end leaves every text where it was written, if no two share a place. -/
theorem read?_writeTexts {tree after : FileTree} {texts : List (UnixPath × String)}
    (h : tree.writeTexts texts = (after, .ok ()))
    (hplaces : texts.Pairwise fun a b => placeOf a.1 ≠ placeOf b.1) :
    ∀ entry ∈ texts, after.read? entry.1 = some entry.2 := by
  induction texts generalizing tree with
  | nil => exact nofun
  | cons first rest ih =>
    obtain ⟨path, text⟩ := first
    obtain ⟨hfirst, hplaces⟩ := List.pairwise_cons.1 hplaces
    obtain ⟨between, hbetween, hrest⟩ := writeTexts_cons_eq_ok h
    intro entry hentry
    rcases List.mem_cons.1 hentry with rfl | hentry
    · obtain ⟨-, hfile, hread, -⟩ := entry?_writeText hbetween
      obtain ⟨hends, hopen, -⟩ := read?_eq_some_iff.1 hread
      have hchanges := changes_writeTexts hrest
      refine read?_eq_some_iff.2 ⟨hends, hchanges.isPassable hopen, ?_⟩
      rw [← hfile]
      refine hchanges.eq_of_not_written ?_ (Or.inr (by rw [hfile]; exact nofun))
      rintro ⟨other, hother, hplace⟩
      exact hfirst other hother hplace
    · exact ih hrest hplaces entry hentry

/-! ## Places -/

theorem mem_beginnings_iff {α : Type} {xs ys : List α} : xs ∈ beginnings ys ↔ xs <+: ys := by
  unfold beginnings
  rw [List.mem_map]
  constructor
  · rintro ⟨n, -, rfl⟩
    exact List.take_prefix n ys
  · intro h
    refine ⟨xs.length, List.mem_range.2 (Nat.lt_succ_of_le h.length_le), ?_⟩
    exact (List.prefix_iff_eq_take.1 h).symm

theorem mem_waypoints_iff {path : UnixPath} {place : Place} :
    place ∈ waypoints path ↔
      ∃ front, front <+: path.components ∧ resolveNames (startOf path) front = place := by
  unfold waypoints
  rw [List.mem_map]
  simp only [mem_beginnings_iff]

theorem resolveNames_append (base : Place) (names more : List String) :
    resolveNames base (names ++ more) = resolveNames (resolveNames base names) more := by
  induction names generalizing base with
  | nil => rfl
  | cons name names ih =>
    rw [List.cons_append, resolveNames, resolveNames]
    split
    · exact ih _
    · split
      · exact ih _
      · split
        · exact ih _
        · exact ih _

/-- Without `..` every name leads one step down. -/
theorem resolveNames_of_notMem (base : Place) {names : List String} (h : ".." ∉ names) :
    resolveNames base names = base ++ names := by
  induction names generalizing base with
  | nil => exact (List.append_nil base).symm
  | cons name names ih =>
    have hname : name ≠ ".." := fun heq => h (heq ▸ List.mem_cons_self)
    rw [resolveNames, if_pos hname, ih _ fun hmem => h (List.mem_cons_of_mem _ hmem),
      List.append_assoc]
    rfl

theorem startOf_parent {path parent : UnixPath} (h : path.parent = some parent) :
    startOf parent = startOf path := by
  unfold startOf
  rw [UnixPath.isAbsolute_parent h]

/-- A path that stays below where it starts. -/
theorem isSafe_iff {path : UnixPath} :
    path.isSafe = true ↔ path.isAbsolute = false ∧ ".." ∉ path.components := by
  unfold UnixPath.isSafe
  rw [Bool.and_eq_true, Bool.not_eq_true', Bool.not_eq_true',
    ← Bool.not_eq_true (List.contains _ _), List.contains_iff_mem]

variable {out path : UnixPath}

theorem components_join (h : path.isSafe = true) :
    (out.join path).components = out.components ++ path.components :=
  UnixPath.components_push (isSafe_iff.1 h).1

theorem startOf_join (out : UnixPath) (h : path.isSafe = true) :
    startOf (out.join path) = startOf out := by
  unfold startOf
  rw [show (out.join path).isAbsolute = out.isAbsolute from
    (UnixPath.push_of_relative (isSafe_iff.1 h).1).1]

/-- A safe path leads to a place below. -/
theorem placeOf_join (h : path.isSafe = true) :
    placeOf (out.join path) = placeOf out ++ path.components := by
  unfold placeOf
  rw [startOf_join out h, components_join h, resolveNames_append,
    resolveNames_of_notMem _ (isSafe_iff.1 h).2]

/-- Below the directory `out`. -/
def Below (out : UnixPath) (place : Place) : Prop :=
  ∃ names, names ≠ [] ∧ place = placeOf out ++ names

/-- The way to a path that goes on from `out` without `..` goes there and then down. -/
theorem IsWay.of_components {names : List String} (hstart : startOf path = startOf out)
    (hcomponents : path.components = out.components ++ names) (hup : ".." ∉ names)
    (hnames : names ≠ []) {place : Place} (hway : IsWay path place) :
    place ∈ waypoints out ∨ ∃ front, front ≠ [] ∧ front <+: names.dropLast ∧
      place = placeOf out ++ front := by
  obtain ⟨parent, hparent, hplace⟩ := hway
  obtain ⟨way, hway, rfl⟩ := mem_waypoints_iff.1 hplace
  rw [UnixPath.components_parent hparent, hcomponents,
    List.dropLast_append_of_ne_nil hnames] at hway
  rw [startOf_parent hparent, hstart]
  rcases List.prefix_or_prefix_of_prefix hway (List.prefix_append _ _) with hout | ⟨front, rfl⟩
  · exact Or.inl (mem_waypoints_iff.2 ⟨way, hout, rfl⟩)
  · rw [List.prefix_append_right_inj] at hway
    by_cases hfront : front = []
    · refine Or.inl (mem_waypoints_iff.2 ⟨out.components, List.prefix_refl _, ?_⟩)
      rw [hfront, List.append_nil]
    · refine Or.inr ⟨front, hfront, hway, ?_⟩
      have hup' : ".." ∉ front := fun hmem =>
        hup (List.dropLast_subset _ (hway.subset hmem))
      rw [resolveNames_append, resolveNames_of_notMem _ hup']
      rfl

/-- The way to a safe path goes to the directory and then down. -/
theorem IsWay.of_join (h : path.isSafe = true) (hpath : path.components ≠ []) {place : Place}
    (hway : IsWay (out.join path) place) :
    place ∈ waypoints out ∨ ∃ names, names ≠ [] ∧ names <+: path.components.dropLast ∧
      place = placeOf out ++ names :=
  hway.of_components (startOf_join out h) (components_join h) (isSafe_iff.1 h).2 hpath

end FileTree

end TaxonomyPress
