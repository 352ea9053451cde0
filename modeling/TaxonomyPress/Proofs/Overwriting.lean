import TaxonomyPress.Proofs.FileWriting

/-!
# Writing where files are

* `FileTree.withText` : the tree with one text put at a place. Where something lies already, a later
  text replaces an earlier one (`withText_withText`), and texts at different places do not meet
  (`withText_comm`);
* `FileTree.Settled` : a path to which a text can be written without a new directory. Then writing is
  `withText` (`Settled.writeText_eq`), which leaves all paths settled that were;
* `FileTree.writeTexts_of_settled` : so a run over settled paths comes to its end and only puts texts;
* `FileTree.lastText?` : the last of the texts for a place, which is what a run leaves there
  (`FileTree.entry?_of_lastText?`);
* `FileTree.writeTexts_of_read?` : what can be read already is written without a change, so to run again
  changes nothing (`FileTree.writeTexts_again`);
* `FileTree.exists_of_writeTexts_error` : a run that fails has come to its end on a beginning.
-/

namespace TaxonomyPress

namespace FileTree

variable {tree after : FileTree} {path : UnixPath} {texts : List (UnixPath × String)}
  {place p q : Place} {text : String}

/-! ## Entries put in place -/

theorem put_put_self (p : Place) (e e' : Entry) (entries : List (Place × Entry)) :
    put p e' (put p e entries) = put p e' entries := by
  induction entries with
  | nil => simp [put]
  | cons first rest ih =>
    obtain ⟨r, f⟩ := first
    by_cases hr : r = p
    · simp [put, hr]
    · simp [put, hr, ih]

/-- What is there already keeps its position, so another entry may come before or after. -/
theorem put_put_comm (hpq : p ≠ q) (e f : Entry) {entries : List (Place × Entry)}
    (hp : p ∈ entries.map (·.1)) : put q f (put p e entries) = put p e (put q f entries) := by
  induction entries with
  | nil => cases hp
  | cons first rest ih =>
    obtain ⟨r, g⟩ := first
    by_cases hrp : r = p
    · subst hrp
      simp [put, hpq]
    · have hrest : p ∈ rest.map (·.1) := by
        rw [List.map_cons, List.mem_cons] at hp
        exact hp.resolve_left (Ne.symm hrp)
      by_cases hrq : r = q
      · subst hrq
        simp [put, hrp]
      · simp [put, hrp, hrq, ih hrest]

theorem put_eq_self {e : Entry} {entries : List (Place × Entry)}
    (h : entries.find? (·.1 = p) = some (p, e)) : put p e entries = entries := by
  induction entries with
  | nil => cases h
  | cons first rest ih =>
    obtain ⟨r, f⟩ := first
    by_cases hr : r = p
    · rw [List.find?_cons_of_pos (by simpa using hr)] at h
      rw [put, if_pos hr, Option.some.inj h, hr]
    · rw [List.find?_cons_of_neg (by simpa using hr)] at h
      rw [put, if_neg hr, ih h]

/-- The tree with `text` at `place`. -/
def withText (tree : FileTree) (place : Place) (text : String) : FileTree :=
  ⟨put place (.file text) tree.entries⟩

theorem entry?_withText (h : tree.entry? place ≠ some .directory) (text : String) (q : Place) :
    FileTree.entry? (tree.withText place text) q =
      if q = place then some (.file text) else tree.entry? q :=
  entry?_put (isOutermost_eq_false h) _ q

theorem find?_of_entry?_file (h : tree.entry? place = some (.file text)) :
    tree.entries.find? (·.1 = place) = some (place, .file text) := by
  have hplace : place.isOutermost = false := isOutermost_eq_false (by rw [h]; exact nofun)
  unfold entry? at h
  rw [if_neg (by rw [hplace]; exact nofun), Option.map_eq_some_iff] at h
  obtain ⟨⟨r, e⟩, hfind, rfl⟩ := h
  obtain rfl : r = place := by simpa using List.find?_some hfind
  exact hfind

theorem withText_eq_self (h : tree.entry? place = some (.file text)) :
    tree.withText place text = tree := by
  unfold withText
  rw [put_eq_self (find?_of_entry?_file h)]

theorem withText_withText (tree : FileTree) (place : Place) (text text' : String) :
    (tree.withText place text).withText place text' = tree.withText place text' := by
  unfold withText
  rw [put_put_self]

theorem withText_comm (hpq : p ≠ q) (hp : p ∈ tree.entries.map (·.1)) (text text' : String) :
    (tree.withText p text).withText q text' = (tree.withText q text').withText p text := by
  unfold withText
  rw [put_put_comm hpq _ _ hp]

theorem mem_keys_withText (hp : p ∈ tree.entries.map (·.1)) (place : Place) (text : String) :
    p ∈ (tree.withText place text).entries.map (·.1) := by
  unfold withText
  generalize tree.entries = entries at hp
  induction entries with
  | nil => cases hp
  | cons first rest ih =>
    obtain ⟨r, e⟩ := first
    rw [put]
    split
    · exact hp
    · rw [List.map_cons, List.mem_cons] at hp ⊢
      exact hp.imp_right ih

/-! ## Many texts -/

/-- The tree with each text put at the place of its path, in their order. -/
def withTexts (tree : FileTree) (texts : List (UnixPath × String)) : FileTree :=
  texts.foldl (fun tree entry => tree.withText (placeOf entry.1) entry.2) tree

/-- What lies at a place does not matter where a text is to come. -/
theorem withTexts_withText (hp : p ∈ tree.entries.map (·.1))
    (hwritten : ∃ entry ∈ texts, placeOf entry.1 = p) (text : String) :
    (tree.withText p text).withTexts texts = tree.withTexts texts := by
  induction texts generalizing tree with
  | nil =>
    obtain ⟨entry, hentry, -⟩ := hwritten
    cases hentry
  | cons first rest ih =>
    unfold withTexts
    rw [List.foldl_cons, List.foldl_cons]
    by_cases hfirst : placeOf first.1 = p
    · rw [hfirst, withText_withText]
    · rw [withText_comm (Ne.symm hfirst) hp]
      refine ih (mem_keys_withText hp _ _) ?_
      obtain ⟨entry, hentry, hplace⟩ := hwritten
      rcases List.mem_cons.1 hentry with rfl | hentry
      · exact absurd hplace hfirst
      · exact ⟨entry, hentry, hplace⟩

/-- The last of the texts for a place. -/
def lastText? (texts : List (UnixPath × String)) (place : Place) : Option String :=
  (texts.reverse.find? fun entry => placeOf entry.1 = place).map (·.2)

theorem lastText?_cons (entry : UnixPath × String) (rest : List (UnixPath × String))
    (place : Place) : lastText? (entry :: rest) place =
      (lastText? rest place).or (if placeOf entry.1 = place then some entry.2 else none) := by
  unfold lastText?
  rw [List.reverse_cons, List.find?_append, Option.map_or, List.find?_singleton]
  congr 1
  by_cases h : placeOf entry.1 = place
  · rw [if_pos h, if_pos (decide_eq_true h)]
    rfl
  · rw [if_neg h, if_neg (by simpa using h)]
    rfl

theorem lastText?_eq_none_iff :
    lastText? texts place = none ↔ ∀ entry ∈ texts, placeOf entry.1 ≠ place := by
  unfold lastText?
  rw [Option.map_eq_none_iff, List.find?_eq_none]
  simp only [List.mem_reverse, decide_eq_true_eq, ne_eq]

theorem exists_of_lastText? (h : lastText? texts place = some text) :
    ∃ entry ∈ texts, placeOf entry.1 = place ∧ entry.2 = text := by
  obtain ⟨entry, hfind, htext⟩ := Option.map_eq_some_iff.1 h
  refine ⟨entry, List.mem_reverse.1 (List.mem_of_find?_eq_some hfind), ?_, htext⟩
  simpa using List.find?_some hfind

/-- Texts that are where they are to come change nothing. -/
theorem withTexts_eq_self (h : ∀ place text, lastText? texts place = some text →
    tree.entry? place = some (.file text)) : tree.withTexts texts = tree := by
  induction texts with
  | nil => rfl
  | cons first rest ih =>
    have hrest : tree.withTexts rest = tree := by
      refine ih fun place text hlast => h place text ?_
      rw [lastText?_cons, hlast]
      rfl
    show (tree.withText (placeOf first.1) first.2).withTexts rest = tree
    cases hlast : lastText? rest (placeOf first.1) with
    | none =>
      have hfirst : tree.entry? (placeOf first.1) = some (.file first.2) := by
        refine h _ _ ?_
        rw [lastText?_cons, hlast, if_pos rfl]
        rfl
      rw [withText_eq_self hfirst, hrest]
    | some text =>
      have hfile : tree.entry? (placeOf first.1) = some (.file text) := by
        refine h _ _ ?_
        rw [lastText?_cons, hlast]
        rfl
      obtain ⟨entry, hentry, hplace, -⟩ := exists_of_lastText? hlast
      -- a later text for the place is the one that lies there, and it replaces this one
      have hkey : placeOf first.1 ∈ tree.entries.map (·.1) :=
        List.mem_map.2 ⟨_, List.mem_of_find?_eq_some (find?_of_entry?_file hfile), rfl⟩
      rw [withTexts_withText hkey ⟨entry, hentry, hplace⟩, hrest]

/-! ## Paths -/

/-- The names of a path that ends in a name. -/
theorem exists_components_of_endsInName (h : endsInName path = true) :
    ∃ front name, (Text.segments '/' path.text).getLast? = some name ∧
      path.components = front ++ [name] ∧ name ≠ ".." := by
  unfold endsInName at h
  unfold UnixPath.components
  split at h
  · rename_i name hlast
    obtain ⟨front, hfront⟩ := List.getLast?_eq_some_iff.1 hlast
    simp only [Bool.and_eq_true, decide_eq_true_eq] at h
    refine ⟨front.filter fun name => name ≠ "" && name ≠ ".", name, hlast, ?_, h.2⟩
    rw [hfront, List.filter_append, List.filter_cons_of_pos (by simp [h.1]), List.filter_nil]
  · cases h

theorem components_ne_nil_of_endsInName (h : endsInName path = true) : path.components ≠ [] := by
  obtain ⟨front, name, -, hnames, -⟩ := exists_components_of_endsInName h
  rw [hnames]
  exact List.append_ne_nil_of_right_ne_nil _ (List.cons_ne_nil _ _)

theorem exists_parent_of_endsInName (h : endsInName path = true) :
    ∃ parent, path.parent = some parent := by
  cases hparent : path.parent with
  | none => exact absurd (UnixPath.parent_eq_none hparent) (components_ne_nil_of_endsInName h)
  | some parent => exact ⟨parent, rfl⟩

theorem isPassable_iff_isWay (h : endsInName path = true) : tree.isPassable path = true ↔
    isShort path = true ∧ ∀ place, IsWay path place → tree.entry? place = some .directory := by
  obtain ⟨parent, hparent⟩ := exists_parent_of_endsInName h
  unfold isPassable
  rw [Bool.and_eq_true, List.all_eq_true,
    ← waypoints_parent hparent (components_ne_nil_of_endsInName h)]
  simp only [beq_iff_eq]
  refine and_congr_right fun _ => ⟨?_, fun hways place hplace => ?_⟩
  · rintro hways place ⟨parent', hparent', hplace⟩
    obtain rfl : parent = parent' := Option.some.inj (hparent.symm.trans hparent')
    exact hways place hplace
  · exact hways place ⟨parent, hparent, hplace⟩

theorem makeDirectories_eq_self (hshort : isShort path = true)
    (h : ∀ place ∈ waypoints path, tree.entry? place = some .directory) :
    tree.makeDirectories path = some tree := by
  unfold makeDirectories
  rw [if_pos hshort]
  generalize waypoints path = places at h
  induction places with
  | nil => rfl
  | cons place places ih =>
    obtain ⟨hplace, hplaces⟩ := List.forall_mem_cons.1 h
    have hmade : tree.makeDirectory place = some tree := by
      unfold makeDirectory
      rw [hplace]
    rw [List.foldlM_cons, hmade]
    exact ih hplaces

/-! ## Settled paths -/

/-- A path to which a text can be written without a new directory: directories lead there, and what
lies there is a file, or nothing and a file may come to lie there. -/
structure Settled (tree : FileTree) (path : UnixPath) : Prop where
  ending : endsInName path = true
  short : isShort path = true
  ways : ∀ place, IsWay path place → tree.entry? place = some .directory
  free : tree.entry? (placeOf path) ≠ some .directory
  name : tree.entry? (placeOf path) = none → isName ((placeOf path).getLastD "") = true

theorem Settled.of_read? (h : tree.read? path = some text) : tree.Settled path := by
  obtain ⟨hends, hopen, hfile⟩ := read?_eq_some_iff.1 h
  obtain ⟨hshort, hways⟩ := (isPassable_iff_isWay hends).1 hopen
  exact ⟨hends, hshort, hways, by rw [hfile]; exact nofun, by rw [hfile]; exact nofun⟩

theorem Settled.writeText_eq (h : tree.Settled path) (text : String) :
    tree.writeText path text = (tree.withText (placeOf path) text, .ok ()) := by
  obtain ⟨parent, hparent⟩ := exists_parent_of_endsInName h.ending
  have hready : tree.IsReadied path tree := Or.inr ⟨parent, hparent,
    makeDirectories_eq_self (isShort_parent hparent h.short) fun place hplace =>
      h.ways place ⟨parent, hparent, hplace⟩⟩
  have hopen : tree.isPassable path = true := (isPassable_iff_isWay h.ending).2 ⟨h.short, h.ways⟩
  obtain ⟨front, name, -, hnames, hdown⟩ := exists_components_of_endsInName h.ending
  have hup := h.ways _ (isWay_dropLast hnames hdown)
  have hwritten : tree.writeFile (placeOf path) text = some (tree.withText (placeOf path) text) := by
    unfold writeFile
    cases hplace : tree.entry? (placeOf path) with
    | none =>
      rw [hup]
      exact if_pos (h.name hplace)
    | some entry =>
      cases entry with
      | directory => exact absurd hplace h.free
      | file _ =>
        rw [hup]
        rfl
  rw [hready.writeText_eq, h.ending, hopen, Bool.and_self, if_pos rfl, hwritten]

/-- Texts where no directory is leave settled paths settled. -/
theorem Settled.withText (h : tree.Settled path) (hplace : tree.entry? place ≠ some .directory)
    (text : String) : (tree.withText place text).Settled path := by
  have hentry := entry?_withText hplace text
  constructor
  case ending => exact h.ending
  case short => exact h.short
  case ways =>
    intro way hway
    have hne : way ≠ place := fun heq => hplace (heq ▸ h.ways way hway)
    rw [hentry, if_neg hne, h.ways way hway]
  case free =>
    rw [hentry]
    split
    · exact nofun
    · exact h.free
  case name =>
    rw [hentry]
    split
    · exact nofun
    · exact h.name

/-- **A run over settled paths** comes to its end, and only puts its texts. -/
theorem writeTexts_of_settled (h : ∀ entry ∈ texts, tree.Settled entry.1) :
    tree.writeTexts texts = (tree.withTexts texts, .ok ()) := by
  induction texts generalizing tree with
  | nil => rfl
  | cons first rest ih =>
    obtain ⟨hfirst, hrest⟩ := List.forall_mem_cons.1 h
    have hrun : (tree.withText (placeOf first.1) first.2).writeTexts rest =
        ((tree.withText (placeOf first.1) first.2).withTexts rest, .ok ()) :=
      ih fun entry hentry => (hrest entry hentry).withText hfirst.free first.2
    rw [writeTexts, hfirst.writeText_eq]
    exact hrun

/-- **The last writer**: a run that comes to its end leaves the last text of each place there. -/
theorem entry?_of_lastText? (hrun : tree.writeTexts texts = (after, .ok ()))
    (hlast : lastText? texts place = some text) : after.entry? place = some (.file text) := by
  induction texts generalizing tree with
  | nil => cases hlast
  | cons first rest ih =>
    obtain ⟨path, first⟩ := first
    obtain ⟨between, hfirst, hrest⟩ := writeTexts_cons_eq_ok hrun
    rw [lastText?_cons] at hlast
    cases hlater : lastText? rest place with
    | some later =>
      rw [hlater] at hlast
      obtain rfl : later = text := Option.some.inj hlast
      exact ih hrest hlater
    | none =>
      rw [hlater, Option.none_or] at hlast
      split at hlast
      · rename_i hplace
        obtain rfl : first = text := Option.some.inj hlast
        obtain rfl : placeOf path = place := hplace
        have hfile : between.entry? (placeOf path) = some (.file first) :=
          (entry?_writeText hfirst).2.1
        rw [← hfile]
        refine (changes_writeTexts hrest).eq_of_not_written ?_ (Or.inr (by rw [hfile]; exact nofun))
        rintro ⟨entry, hentry, heq⟩
        exact lastText?_eq_none_iff.1 hlater entry hentry heq.symm
      · cases hlast

theorem isPassable_of_writeTexts (hrun : tree.writeTexts texts = (after, .ok ())) :
    ∀ entry ∈ texts, endsInName entry.1 = true ∧ after.isPassable entry.1 = true := by
  induction texts generalizing tree with
  | nil => exact nofun
  | cons first rest ih =>
    obtain ⟨path, text⟩ := first
    obtain ⟨between, hfirst, hrest⟩ := writeTexts_cons_eq_ok hrun
    obtain ⟨hends, hopen, -⟩ := read?_eq_some_iff.1 (entry?_writeText hfirst).2.2.1
    refine List.forall_mem_cons.2 ⟨⟨hends, ?_⟩, ih hrest⟩
    exact (changes_writeTexts hrest).isPassable hopen

/-- The last text can be read along each path to its place. -/
theorem exists_read?_of_writeTexts (hrun : tree.writeTexts texts = (after, .ok ())) :
    ∀ entry ∈ texts, ∃ text, lastText? texts (placeOf entry.1) = some text ∧
      after.read? entry.1 = some text := by
  intro entry hentry
  obtain ⟨hends, hopen⟩ := isPassable_of_writeTexts hrun entry hentry
  cases hlast : lastText? texts (placeOf entry.1) with
  | none => exact absurd rfl (lastText?_eq_none_iff.1 hlast entry hentry)
  | some text =>
    exact ⟨text, rfl, read?_eq_some_iff.2 ⟨hends, hopen, entry?_of_lastText? hrun hlast⟩⟩

/-- **A second run** comes to its end too, and changes nothing. -/
theorem writeTexts_again (hrun : tree.writeTexts texts = (after, .ok ())) :
    after.writeTexts texts = (after, .ok ()) := by
  have hsettled : ∀ entry ∈ texts, after.Settled entry.1 := by
    intro entry hentry
    obtain ⟨text, -, hread⟩ := exists_read?_of_writeTexts hrun entry hentry
    exact .of_read? hread
  rw [writeTexts_of_settled hsettled, withTexts_eq_self fun place text => entry?_of_lastText? hrun]

/-! ## Runs that fail -/

/-- A text that cannot be written leaves no file, but there may be more directories. -/
theorem changes_of_writeText_error {e : FileError}
    (h : tree.writeText path text = (after, .error e)) :
    after.files = tree.files ∧ tree.Changes after (IsWay path) fun _ => False := by
  rcases writeText_cases tree path text with
    ⟨made, after', -, -, -, -, heq⟩ | ⟨made, e, hmade, heq⟩
  · rw [h] at heq
    cases heq
  · obtain rfl : made = after := congrArg Prod.fst (heq.symm.trans h)
    rcases hmade with rfl | hmade
    · exact ⟨rfl, .refl _ _ _⟩
    · exact ⟨hmade.files_eq, hmade.changes _⟩

/-- **A run that fails** has come to its end on a beginning, and the next text cannot be written. -/
theorem exists_of_writeTexts_error {e : FileError}
    (hrun : tree.writeTexts texts = (after, .error e)) :
    ∃ i between entry, texts[i]? = some entry ∧ tree.writeTexts (texts.take i) = (between, .ok ()) ∧
      between.writeText entry.1 entry.2 = (after, .error e) := by
  induction texts generalizing tree with
  | nil => cases hrun
  | cons first rest ih =>
    rw [writeTexts] at hrun
    split at hrun
    · rename_i between hfirst
      obtain ⟨i, between', entry, hentry, hbegun, hfails⟩ := ih hrun
      refine ⟨i + 1, between', entry, hentry, ?_, hfails⟩
      rw [List.take_succ_cons, writeTexts, hfirst]
      exact hbegun
    · rename_i between e' hfirst
      cases hrun
      exact ⟨0, tree, first, rfl, rfl, hfirst⟩

end FileTree

end TaxonomyPress
