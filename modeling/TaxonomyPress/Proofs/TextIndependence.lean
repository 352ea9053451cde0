import Mathlib.Data.List.Basic
import TaxonomyPress.CommandLine.Run

/-!
# What texts do not decide

Whether a file can be written, and which pages a tree asks for, depends on where files and directories
lie. So it is the same over a tree without its texts, and whatever a printer makes of a body.

* `FileTree.blank` : a tree without its texts;
* `FileTree.writeText_blank`, `FileTree.writeTexts_blank` : writing comes to the same over it;
* `FileTree.stubs_blank`, `FileTree.writeRedirects_blank` : and so do redirects;
* `printer_decides_texts_only` : so a printer decides texts only.
-/

namespace TaxonomyPress

/-- The entry without its text. -/
def Entry.blank : Entry → Entry
  | .directory => .directory
  | .file _ => .file ""

namespace FileTree

/-- The entries of a tree or a walk without their texts. -/
def blankEntries (entries : List (Place × Entry)) : List (Place × Entry) :=
  entries.map fun found => (found.1, found.2.blank)

/-- The tree without its texts. -/
def blank (tree : FileTree) : FileTree := ⟨blankEntries tree.entries⟩

/-- What is written where, without the texts. -/
def blankTexts (texts : List (UnixPath × String)) : List (UnixPath × String) :=
  texts.map fun entry => (entry.1, "")

variable {tree tree' : FileTree}

/-! ## Reading -/

theorem entry?_blank (tree : FileTree) (place : Place) :
    tree.blank.entry? place = (tree.entry? place).map Entry.blank := by
  unfold entry? blank blankEntries
  split
  · rfl
  · rw [List.find?_map, Option.map_map, Option.map_map]
    rfl

theorem directory_blank_iff (tree : FileTree) (place : Place) :
    tree.blank.entry? place = some .directory ↔ tree.entry? place = some .directory := by
  rw [entry?_blank]
  rcases tree.entry? place with _ | _ | text
  · exact iff_of_false nofun nofun
  · exact Iff.rfl
  · exact iff_of_false nofun nofun

theorem isPassable_blank (tree : FileTree) (path : UnixPath) :
    tree.blank.isPassable path = tree.isPassable path := by
  have hdirectory : ∀ place, (tree.blank.entry? place == some .directory) =
      (tree.entry? place == some .directory) := by
    intro place
    rw [Bool.eq_iff_iff, beq_iff_eq, beq_iff_eq, directory_blank_iff]
  unfold isPassable
  simp only [hdirectory]

/-! ## Writing -/

theorem put_blank (place : Place) (entry : Entry) (entries : List (Place × Entry)) :
    put place entry.blank (blankEntries entries) = blankEntries (put place entry entries) := by
  induction entries with
  | nil => rfl
  | cons first rest ih =>
    obtain ⟨p, e⟩ := first
    unfold blankEntries at ih ⊢
    rw [List.map_cons, put, put, ih]
    split
    · rfl
    · rfl

theorem makeDirectory_blank (tree : FileTree) (place : Place) :
    tree.blank.makeDirectory place = (tree.makeDirectory place).map blank := by
  unfold makeDirectory
  rw [entry?_blank]
  rcases tree.entry? place with _ | _ | text
  · show (if _ then some (FileTree.mk (put place Entry.directory.blank _)) else none) = _
    unfold blank
    rw [put_blank]
    dsimp only
    split
    · rfl
    · rfl
  · rfl
  · rfl

theorem makeDirectories_blank (tree : FileTree) (path : UnixPath) :
    tree.blank.makeDirectories path = (tree.makeDirectories path).map blank := by
  have hplaces (places : List Place) : ∀ tree : FileTree,
      places.foldlM makeDirectory tree.blank = (places.foldlM makeDirectory tree).map blank := by
    induction places with
    | nil => exact fun _ => rfl
    | cons place places ih =>
      intro tree
      rw [List.foldlM_cons, List.foldlM_cons, makeDirectory_blank]
      cases tree.makeDirectory place with
      | none => rfl
      | some made => exact ih made
  unfold makeDirectories
  split
  · exact hplaces _ tree
  · rfl

theorem writeFile_blank (tree : FileTree) (place : Place) (text : String) :
    tree.blank.writeFile place "" = (tree.writeFile place text).map blank := by
  have hput : (⟨put place (.file "") tree.blank.entries⟩ : FileTree) =
      blank ⟨put place (.file text) tree.entries⟩ :=
    congrArg FileTree.mk (put_blank place (.file text) tree.entries)
  unfold writeFile
  rw [entry?_blank, entry?_blank, hput]
  rcases tree.entry? place.dropLast with _ | _ | up
  · rcases tree.entry? place with _ | _ | old <;> rfl
  · rcases tree.entry? place with _ | _ | old
    · dsimp only [Option.map_some, Option.map_none, Entry.blank]
      split
      · rfl
      · rfl
    · rfl
    · rfl
  · rcases tree.entry? place with _ | _ | old <;> rfl

/-- **One write**: it comes to the same without texts, and leaves the same without texts. -/
theorem writeText_blank (tree : FileTree) (path : UnixPath) (text : String) :
    tree.blank.writeText path "" = (tree.writeText path text).map blank id := by
  have hopened (made : FileTree) :
      (if endsInName path && made.blank.isPassable path then
          made.blank.writeFile (placeOf path) "" else none) =
        (if endsInName path && made.isPassable path then
          made.writeFile (placeOf path) text else none).map blank := by
    rw [isPassable_blank, writeFile_blank made _ text]
    split
    · rfl
    · rfl
  unfold writeText
  cases path.parent with
  | none =>
    dsimp only
    rw [hopened tree]
    cases (if endsInName path && tree.isPassable path then
      tree.writeFile (placeOf path) text else none) with
    | none => rfl
    | some written => rfl
  | some parent =>
    dsimp only
    rw [makeDirectories_blank]
    cases tree.makeDirectories parent with
    | none => rfl
    | some made =>
      dsimp only [Option.map_some]
      rw [hopened made]
      cases (if endsInName path && made.isPassable path then
        made.writeFile (placeOf path) text else none) with
      | none => rfl
      | some written => rfl

/-- **A run of writes.** -/
theorem writeTexts_blank (tree : FileTree) (texts : List (UnixPath × String)) :
    tree.blank.writeTexts (blankTexts texts) = (tree.writeTexts texts).map blank id := by
  unfold blankTexts
  induction texts generalizing tree with
  | nil => rfl
  | cons first rest ih =>
    obtain ⟨path, text⟩ := first
    rw [List.map_cons, writeTexts, writeTexts, writeText_blank tree path text]
    obtain ⟨written, outcome⟩ := tree.writeText path text
    cases outcome with
    | error e => rfl
    | ok _ => exact ih written

/-- Over trees that are alike, texts for the same paths come to the same. -/
theorem writeTexts_alike {texts texts' : List (UnixPath × String)} (htree : tree'.blank = tree.blank)
    (htexts : texts'.map Prod.fst = texts.map Prod.fst) :
    (tree'.writeTexts texts').1.blank = (tree.writeTexts texts).1.blank ∧
      (tree'.writeTexts texts').2 = (tree.writeTexts texts).2 := by
  have hblank : blankTexts texts' = blankTexts texts := by
    have hpairs := congrArg (List.map fun path => (path, "")) htexts
    rw [List.map_map, List.map_map] at hpairs
    exact hpairs
  have hwrite : (tree'.writeTexts texts').map blank id = (tree.writeTexts texts).map blank id := by
    rw [← writeTexts_blank, ← writeTexts_blank, htree, hblank]
  exact Prod.mk.inj hwrite

/-! ## Redirects -/

theorem isFile_blank (tree : FileTree) (place : Place) :
    tree.blank.isFile place = tree.isFile place := by
  unfold isFile
  rw [entry?_blank]
  rcases tree.entry? place with _ | _ | text
  · rfl
  · rfl
  · rfl

theorem isDirectory_blank (tree : FileTree) (place : Place) :
    tree.blank.isDirectory place = tree.isDirectory place := by
  unfold isDirectory
  rw [entry?_blank]
  rcases tree.entry? place with _ | _ | text
  · rfl
  · rfl
  · rfl

theorem below_blank (tree : FileTree) (place : Place) :
    tree.blank.below place = blankEntries (tree.below place) := by
  unfold below blank blankEntries
  rw [List.filterMap_map, List.map_filterMap]
  refine List.filterMap_congr fun entry _ => ?_
  show Option.map _ (namesBelow place entry.1) = Option.map _ (Option.map _ _)
  rw [Option.map_map]
  rfl

theorem stubFor_blank (tree : FileTree) (root : Place) (found : Place × Entry) :
    tree.blank.stubFor root (found.1, found.2.blank) = tree.stubFor root found := by
  have hfile : tree.blank.isFile = tree.isFile := funext (isFile_blank tree)
  have hdirectory : tree.blank.isDirectory = tree.isDirectory := funext (isDirectory_blank tree)
  obtain ⟨names, entry⟩ := found
  unfold stubFor directoryStub documentStub leadsToDirectory
  rw [hfile, hdirectory]
  cases names.getLast? with
  | none => rfl
  | some name =>
    cases entry with
    | directory => rfl
    | file text => rfl

theorem stubs_blank (tree : FileTree) (root : Place) (walk : List (Place × Entry)) :
    tree.blank.stubs root (blankEntries walk) = tree.stubs root walk := by
  unfold stubs blankEntries
  rw [List.filterMap_map]
  exact List.filterMap_congr fun found _ => stubFor_blank tree root found

theorem blank_blank (tree : FileTree) : tree.blank.blank = tree.blank := by
  have hentry (entry : Entry) : entry.blank.blank = entry.blank := by
    cases entry with
    | directory => rfl
    | file text => rfl
  unfold blank blankEntries
  simp only [List.map_map, Function.comp_def, hentry]

theorem writeRedirectsAlong_blank (tree : FileTree) (root : UnixPath) (place : Place)
    (walk : List (Place × Entry)) :
    (tree.blank.writeRedirectsAlong root place (blankEntries walk)).map blank id =
      (tree.writeRedirectsAlong root place walk).map blank id := by
  unfold writeRedirectsAlong
  rw [stubs_blank]
  obtain ⟨hwritten, houtcome⟩ := writeTexts_alike (blank_blank tree)
    (rfl : ((tree.stubs place walk).map fun stub =>
      (stub.place.foldl UnixPath.push root, stub.text)).map Prod.fst = _)
  refine Prod.ext hwritten ?_
  dsimp only [Prod.map, id_eq]
  rw [houtcome]

/-- **Redirects** come to the same without texts. -/
theorem writeRedirects_blank (tree : FileTree) (root : UnixPath) :
    (tree.blank.writeRedirects root).map blank id = (tree.writeRedirects root).map blank id := by
  have hsame (outcome : Except FileError Nat) :
      (tree.blank, outcome).map blank id = (tree, outcome).map blank id := by
    rw [Prod.map_apply, Prod.map_apply, blank_blank]
  unfold writeRedirects
  dsimp only
  rw [isPassable_blank, entry?_blank, below_blank]
  cases tree.isPassable root with
  | false => exact hsame _
  | true =>
    rw [if_pos rfl, if_pos rfl]
    rcases tree.entry? (placeOf root) with _ | _ | text
    · exact hsame _
    · exact writeRedirectsAlong_blank tree root _ _
    · exact hsame _

theorem writeRedirects_alike (htree : tree'.blank = tree.blank) (root : UnixPath) :
    (tree'.writeRedirects root).1.blank = (tree.writeRedirects root).1.blank ∧
      (tree'.writeRedirects root).2 = (tree.writeRedirects root).2 := by
  have hrun : (tree'.writeRedirects root).map blank id = (tree.writeRedirects root).map blank id := by
    rw [← writeRedirects_blank tree', ← writeRedirects_blank tree, htree]
  exact Prod.mk.inj hrun

end FileTree

/-! ## Runs -/

open FileTree

variable {tree tree' : FileTree}

theorem Taxonomy.generate_alike (T : Taxonomy) (settings : Settings) (out : UnixPath)
    (print print' : Json → String) (htree : tree'.blank = tree.blank) :
    (T.generate settings tree' out print').1.blank = (T.generate settings tree out print).1.blank ∧
      (T.generate settings tree' out print').2 = (T.generate settings tree out print).2 := by
  have hpaths : ((T.build settings).documents.map fun d =>
      (out.join d.path, documentText print' d.body)).map Prod.fst =
        ((T.build settings).documents.map fun d =>
          (out.join d.path, documentText print d.body)).map Prod.fst := by
    rw [List.map_map, List.map_map]
    rfl
  obtain ⟨hwritten, houtcome⟩ := writeTexts_alike htree hpaths
  unfold Taxonomy.generate FileTree.writeDocuments
  dsimp only
  rw [houtcome]
  exact ⟨hwritten, rfl⟩

theorem writeStubs_alike (given : Arguments) (htree : tree'.blank = tree.blank) :
    (writeStubs given tree').1.blank = (writeStubs given tree).1.blank ∧
      (writeStubs given tree').2 = (writeStubs given tree).2 := by
  obtain ⟨hwritten, houtcome⟩ := writeRedirects_alike htree given.out
  unfold writeStubs
  split
  · dsimp only
    rw [houtcome]
    exact ⟨hwritten, rfl⟩
  · exact ⟨htree, rfl⟩

theorem Arguments.run_print (given : Arguments) (disk : Disk) (tools : Tools)
    (print : Json → String) :
    (given.run disk { tools with print }).tree.blank = (given.run disk tools).tree.blank ∧
      (given.run disk { tools with print }).notes = (given.run disk tools).notes ∧
      (given.run disk { tools with print }).lines = (given.run disk tools).lines ∧
      (given.run disk { tools with print }).error = (given.run disk tools).error := by
  have hload : loadTaxonomy { tools with print } given disk = loadTaxonomy tools given disk := rfl
  unfold Arguments.run
  rw [hload]
  rcases loadTaxonomy tools given disk with e | ⟨settings, T⟩
  · exact ⟨rfl, rfl, rfl, rfl⟩
  · have htree : disk.tree.blank = disk.tree.blank := rfl
    obtain ⟨hwritten, houtcome⟩ := T.generate_alike settings given.out tools.print print htree
    dsimp only
    generalize T.generate settings disk.tree given.out print = run' at hwritten houtcome ⊢
    generalize T.generate settings disk.tree given.out tools.print = run at hwritten houtcome ⊢
    obtain ⟨written', outcome'⟩ := run'
    obtain ⟨written, outcome⟩ := run
    obtain rfl : outcome' = outcome := houtcome
    cases outcome' with
    | error e => exact ⟨hwritten, rfl, rfl, rfl⟩
    | ok report =>
      obtain ⟨hstubbed, hstubs⟩ := writeStubs_alike given hwritten
      dsimp only at hstubbed hstubs ⊢
      generalize writeStubs given written' = after' at hstubbed hstubs ⊢
      generalize writeStubs given written = after at hstubbed hstubs ⊢
      obtain ⟨stubbed', stubs'⟩ := after'
      obtain ⟨stubbed, stubs⟩ := after
      obtain rfl : stubs' = stubs := hstubs
      cases stubs' with
      | error e => exact ⟨hstubbed, rfl, rfl, rfl⟩
      | ok lines => exact ⟨hstubbed, rfl, rfl, rfl⟩

/-- **A printer decides texts only**: files and directories lie in the same places, and all that a
call comes to besides is the same. -/
theorem printer_decides_texts_only (arguments : List String) (disk : Disk) (tools : Tools)
    (print : Json → String) :
    (respond arguments disk { tools with print }).tree.blank =
        (respond arguments disk tools).tree.blank ∧
      (respond arguments disk { tools with print }).notes = (respond arguments disk tools).notes ∧
      (respond arguments disk { tools with print }).lines = (respond arguments disk tools).lines ∧
      (respond arguments disk { tools with print }).message =
        (respond arguments disk tools).message ∧
      (respond arguments disk { tools with print }).code = (respond arguments disk tools).code := by
  unfold respond
  dsimp only
  cases tools.readArguments arguments with
  | fault => exact ⟨rfl, rfl, rfl, rfl, rfl⟩
  | help => exact ⟨rfl, rfl, rfl, rfl, rfl⟩
  | run given =>
    obtain ⟨htree, hnotes, hlines, herror⟩ := given.run_print disk tools print
    dsimp only
    unfold Outcome.code
    rw [herror]
    exact ⟨htree, hnotes, hlines, rfl, rfl⟩

end TaxonomyPress
