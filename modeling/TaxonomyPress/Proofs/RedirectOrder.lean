import TaxonomyPress.Proofs.Overwriting
import TaxonomyPress.Proofs.Redirects

/-!
# Redirects in any order

* `FileTree.IsWalk` : what lies below a root that can be walked, in any order;
* `FileTree.Redirected` : a tree with the stubs of another and nothing else that is new;
* `FileTree.IsWalk.redirected` : what a run along any walk leaves;
* `FileTree.Redirected.mem_stubsBelow_iff` : the stubs ask for none themselves and stop no other from
  being asked for;
* `FileTree.redirects_in_any_order` : all runs come to the same, and a second run changes nothing.
-/

namespace TaxonomyPress

namespace FileTree

variable {tree after : FileTree} {root : UnixPath} {walk : List (Place × Entry)} {count : Nat}
  {place : Place} {stub : Stub}

/-! ## Walks -/

/-- What lies below a root that can be walked, in any order. -/
structure IsWalk (tree : FileTree) (root : UnixPath) (walk : List (Place × Entry)) : Prop where
  canWalk : tree.CanWalk root
  perm : walk.Perm (tree.below (placeOf root))

theorem CanWalk.isWalk (h : tree.CanWalk root) : tree.IsWalk root (tree.below (placeOf root)) :=
  ⟨h, .refl _⟩

theorem IsWalk.stubs_perm (h : tree.IsWalk root walk) :
    (tree.stubs (placeOf root) walk).Perm (tree.stubsBelow (placeOf root)) :=
  h.perm.filterMap _

/-- The walk of a run is one of them. -/
theorem WellFormed.writeRedirects_eq (h : tree.WellFormed) (hroot : tree.CanWalk root) :
    tree.writeRedirects root =
      tree.writeRedirectsAlong root (placeOf root) (tree.below (placeOf root)) := by
  rcases tree.writeRedirects_cases root with
    ⟨-, -, heq⟩ | ⟨-, ⟨text, hfile⟩, heq⟩ | ⟨hnot, -⟩
  · exact heq
  · rw [heq, h.below_eq_nil (by rw [hfile]; exact nofun)]
    rfl
  · exact absurd hroot hnot

/-! ## Where stubs come to lie -/

theorem exists_place_of_stubFor {found : Place × Entry}
    (h : tree.stubFor place found = some stub) :
    ∃ parent stem, stub.place = parent ++ [stem ++ ".md"] := by
  rcases stub_cases h with ⟨parent, stem, text, rfl, -, -, rfl⟩ |
    ⟨parent, name, rfl, -, hstub, -⟩
  · exact ⟨parent, stem, rfl⟩
  · exact ⟨parent ++ [name], "index", hstub⟩

theorem page_ne_document (a b : String) : a ++ ".md" ≠ b ++ ".jsonld" := by
  intro heq
  have hending : ".jsonld" = ".jso" ++ "nld" := by decide
  have hends : a.toList ++ ".md".toList = (b ++ ".jso").toList ++ "nld".toList := by
    rw [← String.toList_append, ← String.toList_append, heq, String.append_assoc, ← hending]
  exact absurd (List.append_inj_right' hends (by decide)) (by decide)

/-- No stub lies where a document does. -/
theorem place_ne_document (hstub : stub ∈ tree.stubsBelow place) (parent : Place) (name : String) :
    stub.place ≠ parent ++ [name ++ ".jsonld"] := by
  obtain ⟨found, -, hasks⟩ := mem_stubsBelow_iff.1 hstub
  obtain ⟨front, stem, hplace⟩ := exists_place_of_stubFor hasks
  rw [hplace]
  exact fun heq => page_ne_document _ _ (List.append_singleton_inj.1 heq).2

/-- Directories lead to wherever a stub is to lie. -/
theorem WellFormed.directory_above_stub (h : tree.WellFormed)
    (hstub : stub ∈ tree.stubsBelow place) {front : Place} (hfront : front <+: stub.place.dropLast) :
    tree.entry? (place ++ front) = some .directory := by
  obtain ⟨found, hfound, hasks⟩ := mem_stubsBelow_iff.1 hstub
  rcases stub_cases hasks with ⟨parent, stem, text, rfl, -, -, rfl⟩ |
    ⟨parent, name, rfl, -, hplace, -⟩
  · rw [List.dropLast_concat] at hfront
    refine h.directory_of_prefix hfound (hfront.trans (List.prefix_append _ _)) ?_
    rintro rfl
    exact absurd hfront.length_le (by simp)
  · rw [hplace, List.dropLast_concat] at hfront
    by_cases heq : front = parent ++ [name]
    · rw [heq]
      exact h.entry?_of_mem_below hfound
    · exact h.directory_of_prefix hfound hfront heq

theorem directory_of_mem_waypoints (hopen : tree.isPassable root = true)
    (hroot : tree.entry? (placeOf root) = some .directory) (hplace : place ∈ waypoints root) :
    tree.entry? place = some .directory := by
  have hways : ∃ ways, waypoints root = ways ++ [placeOf root] := by
    unfold waypoints beginnings
    rw [List.range_succ, List.map_append, List.map_append]
    exact ⟨_, by rw [List.map_singleton, List.map_singleton, List.take_length]; rfl⟩
  obtain ⟨ways, hways⟩ := hways
  unfold isPassable at hopen
  rw [hways, List.dropLast_concat, Bool.and_eq_true, List.all_eq_true] at hopen
  rw [hways, List.mem_append, List.mem_singleton] at hplace
  rcases hplace with hplace | rfl
  · exact beq_iff_eq.1 (hopen.2 place hplace)
  · exact hroot

theorem WellFormed.directory_on_way (h : tree.WellFormed) (hopen : tree.isPassable root = true)
    (hstub : stub ∈ tree.stubsBelow (placeOf root))
    (hway : IsWay (stub.place.foldl UnixPath.push root) place) :
    tree.entry? place = some .directory := by
  have hnames := (h.stub_names hstub).1
  have hne : stub.place ≠ [] := by
    obtain ⟨found, -, hasks⟩ := mem_stubsBelow_iff.1 hstub
    obtain ⟨parent, stem, hplace⟩ := exists_place_of_stubFor hasks
    rw [hplace]
    exact concat_ne_nil _ _
  rcases hway.of_components (startOf_foldl_push root hnames) (components_foldl_push root hnames)
    (up_notMem hnames) hne with hway | ⟨front, -, hfront, rfl⟩
  · have hroot := h.directory_above_stub hstub (List.nil_prefix (l := stub.place.dropLast))
    rw [List.append_nil] at hroot
    exact directory_of_mem_waypoints hopen hroot hway
  · exact h.directory_above_stub hstub hfront

/-! ## What a run leaves -/

theorem WellFormed.placeOf_stub (h : tree.WellFormed)
    (hstub : stub ∈ tree.stubsBelow (placeOf root)) :
    placeOf (stub.place.foldl UnixPath.push root) = placeOf root ++ stub.place :=
  placeOf_foldl_push root (h.stub_names hstub).1

theorem WellFormed.nodup_paths (h : tree.WellFormed) (root : UnixPath) :
    ((tree.stubsBelow (placeOf root)).map fun stub =>
      placeOf (stub.place.foldl UnixPath.push root)).Nodup := by
  refine List.pairwise_map.2 ((List.pairwise_map.1 h.nodup_places).imp_of_mem ?_)
  intro stub stub' hstub hstub' hne heq
  rw [h.placeOf_stub hstub, h.placeOf_stub hstub', List.append_right_inj] at heq
  exact hne heq

/-- A tree with the stubs of another and nothing else that is new. -/
structure Redirected (tree after : FileTree) (root : UnixPath) : Prop where
  wellFormed : after.WellFormed
  free : ∀ stub ∈ tree.stubsBelow (placeOf root),
    tree.entry? (placeOf root ++ stub.place) ≠ some .directory
  written : ∀ stub ∈ tree.stubsBelow (placeOf root),
    after.read? (stub.place.foldl UnixPath.push root) = some stub.text
  kept : ∀ place, (∀ stub ∈ tree.stubsBelow (placeOf root), placeOf root ++ stub.place ≠ place) →
    after.entry? place = tree.entry? place

section Run

variable (htree : tree.WellFormed) (hwalk : tree.IsWalk root walk)
include htree hwalk

theorem IsWalk.nodup_places :
    ((tree.stubs (placeOf root) walk).map fun stub =>
      placeOf (stub.place.foldl UnixPath.push root)).Nodup :=
  (hwalk.stubs_perm.map _).nodup_iff.2 (htree.nodup_paths root)

/-- All ways are there before a run, so it writes nothing but stubs. -/
theorem IsWalk.redirected
    (h : tree.writeRedirectsAlong root (placeOf root) walk = (after, .ok count)) :
    tree.Redirected after root := by
  obtain ⟨hrun, -⟩ := writeRedirectsAlong_eq_ok_iff.1 h
  have hmem {stub : Stub} (hstub : stub ∈ tree.stubsBelow (placeOf root)) :
      (stub.place.foldl UnixPath.push root, stub.text) ∈
        stubTexts root (tree.stubs (placeOf root) walk) :=
    List.mem_map.2 ⟨stub, hwalk.stubs_perm.mem_iff.2 hstub, rfl⟩
  constructor
  case wellFormed => exact htree.writeTexts hrun
  case free =>
    intro stub hstub
    have hfree := entry?_ne_of_writeTexts hrun _ (hmem hstub)
    dsimp only at hfree
    rwa [htree.placeOf_stub hstub] at hfree
  case written =>
    intro stub hstub
    have hapart : (stubTexts root (tree.stubs (placeOf root) walk)).Pairwise
        fun a b => placeOf a.1 ≠ placeOf b.1 :=
      List.pairwise_map.2 (List.pairwise_map.1 (hwalk.nodup_places htree))
    exact read?_writeTexts hrun hapart (stub.place.foldl UnixPath.push root, stub.text) (hmem hstub)
  case kept =>
    intro place hplace
    refine (changes_writeTexts hrun).eq_of_not_written ?_ ?_
    · rintro ⟨entry, hentry, rfl⟩
      obtain ⟨stub, hstub, rfl⟩ := List.mem_map.1 hentry
      have hbelow := hwalk.stubs_perm.mem_iff.1 hstub
      exact hplace stub hbelow (htree.placeOf_stub hbelow).symm
    · -- what leads to a stub is a directory already
      rw [or_iff_not_imp_left, not_not]
      rintro ⟨entry, hentry, hway⟩
      obtain ⟨stub, hstub, rfl⟩ := List.mem_map.1 hentry
      have hbelow := hwalk.stubs_perm.mem_iff.1 hstub
      rw [htree.directory_on_way hwalk.canWalk.1 hbelow hway]
      exact nofun

end Run

namespace Redirected

variable (htree : tree.WellFormed) (h : tree.Redirected after root)
include htree h

theorem entry?_stub (hstub : stub ∈ tree.stubsBelow (placeOf root)) :
    after.entry? (placeOf root ++ stub.place) = some (.file stub.text) := by
  rw [← htree.placeOf_stub hstub]
  exact (read?_eq_some_iff.1 (h.written stub hstub)).2.2

theorem directory_iff (place : Place) :
    after.entry? place = some .directory ↔ tree.entry? place = some .directory := by
  by_cases hplace : ∃ stub ∈ tree.stubsBelow (placeOf root), placeOf root ++ stub.place = place
  · obtain ⟨stub, hstub, rfl⟩ := hplace
    rw [h.entry?_stub htree hstub]
    exact iff_of_false nofun (h.free stub hstub)
  · push Not at hplace
    rw [h.kept place hplace]

omit htree in
theorem entry?_document (parent : Place) (name : String) :
    after.entry? (placeOf root ++ (parent ++ [name ++ ".jsonld"])) =
      tree.entry? (placeOf root ++ (parent ++ [name ++ ".jsonld"])) := by
  refine h.kept _ fun stub hstub heq => ?_
  exact place_ne_document hstub parent name (List.append_cancel_left heq)

theorem isDirectory_eq (place : Place) : after.isDirectory place = tree.isDirectory place :=
  Bool.eq_iff_iff.2 (isDirectory_iff.trans ((h.directory_iff htree place).trans isDirectory_iff.symm))

omit htree in
theorem isFile_document (parent : Place) (name : String) :
    after.isFile (placeOf root ++ (parent ++ [name ++ ".jsonld"])) =
      tree.isFile (placeOf root ++ (parent ++ [name ++ ".jsonld"])) := by
  unfold isFile
  rw [h.entry?_document]

/-- What an entry asks for depends on documents and directories only. -/
theorem stubFor_eq (found : Place × Entry) :
    after.stubFor (placeOf root) found = tree.stubFor (placeOf root) found := by
  have hdirectory (parent : Place) (name : String) :
      after.directoryStub (placeOf root) parent name =
        tree.directoryStub (placeOf root) parent name := by
    -- the own index is a document like the one beside it
    unfold directoryStub
    rw [show "index.jsonld" = "index" ++ ".jsonld" from rfl]
    simp only [h.isFile_document]
  have hleads : after.leadsToDirectory = tree.leadsToDirectory := by
    funext place name
    unfold leadsToDirectory
    rw [h.isDirectory_eq htree]
  have hdocument (parent : Place) (name : String) :
      after.documentStub (placeOf root) parent name =
        tree.documentStub (placeOf root) parent name := by
    unfold documentStub
    rw [hleads]
  unfold stubFor
  simp only [hdirectory, hdocument]

theorem mem_below_iff {found : Place × Entry}
    (hasks : tree.stubFor (placeOf root) found = some stub) :
    found ∈ after.below (placeOf root) ↔ found ∈ tree.below (placeOf root) := by
  rcases stub_cases hasks with ⟨parent, stem, text, rfl, -, -, -⟩ | ⟨parent, name, rfl, -, -, -⟩
  · rw [h.wellFormed.mem_below_iff_entry, htree.mem_below_iff_entry, h.entry?_document]
  · rw [h.wellFormed.mem_below_iff_entry, htree.mem_below_iff_entry, h.directory_iff htree]

/-- The stubs ask for none themselves, and stop no other from being asked for. -/
theorem mem_stubsBelow_iff :
    stub ∈ after.stubsBelow (placeOf root) ↔ stub ∈ tree.stubsBelow (placeOf root) := by
  rw [FileTree.mem_stubsBelow_iff, FileTree.mem_stubsBelow_iff]
  simp only [h.stubFor_eq htree]
  refine exists_congr fun found => and_congr_left fun hasks => h.mem_below_iff htree hasks

theorem stubs_perm {walk : List (Place × Entry)} (hwalk : after.IsWalk root walk) :
    (after.stubs (placeOf root) walk).Perm (tree.stubsBelow (placeOf root)) := by
  refine hwalk.stubs_perm.trans ((List.perm_ext_iff_of_nodup ?_ ?_).2 ?_)
  · exact h.wellFormed.nodup_places.of_map _
  · exact htree.nodup_places.of_map _
  · exact fun stub => h.mem_stubsBelow_iff htree

theorem isPassable {path : UnixPath} (hopen : tree.isPassable path = true) :
    after.isPassable path = true := by
  unfold FileTree.isPassable at hopen ⊢
  rw [Bool.and_eq_true, List.all_eq_true] at hopen ⊢
  refine ⟨hopen.1, fun place hmem => beq_iff_eq.2 ((h.directory_iff htree place).2 ?_)⟩
  exact beq_iff_eq.1 (hopen.2 place hmem)

theorem canWalk (hroot : tree.CanWalk root) : after.CanWalk root := by
  obtain ⟨hopen, hplace⟩ := hroot
  refine ⟨h.isPassable htree hopen, hplace.imp (h.directory_iff htree _).2 (And.imp_right ?_)⟩
  rintro ⟨text, hfile⟩
  have hnone : tree.stubsBelow (placeOf root) = [] :=
    htree.stubsBelow_eq_nil (by rw [hfile]; exact nofun)
  refine ⟨text, (h.kept _ ?_).trans hfile⟩
  rw [hnone]
  exact nofun

/-- Documents can be read as before, wherever they are. -/
theorem read?_document {path : UnixPath} {front : Place} {name text : String}
    (hplace : placeOf path = front ++ [name ++ ".jsonld"]) (hread : tree.read? path = some text) :
    after.read? path = some text := by
  obtain ⟨hends, hopen, hfile⟩ := read?_eq_some_iff.1 hread
  refine read?_eq_some_iff.2 ⟨hends, h.isPassable htree hopen, (h.kept _ ?_).trans hfile⟩
  intro stub hstub heq
  obtain ⟨found, -, hasks⟩ := FileTree.mem_stubsBelow_iff.1 hstub
  obtain ⟨parent, stem, hstem⟩ := exists_place_of_stubFor hasks
  rw [hplace, hstem, ← List.append_assoc] at heq
  exact page_ne_document _ _ (List.append_singleton_inj.1 heq).2

end Redirected

theorem WellFormed.redirected (htree : tree.WellFormed)
    (h : tree.writeRedirects root = (after, .ok count)) : tree.Redirected after root := by
  have hroot : tree.CanWalk root := by
    rcases tree.writeRedirects_cases root with ⟨hroot, -⟩ | ⟨hroot, -⟩ | ⟨-, heq⟩
    · exact hroot
    · exact hroot
    · rw [heq] at h
      cases h
  exact hroot.isWalk.redirected htree ((htree.writeRedirects_eq hroot).symm.trans h)

end FileTree

end TaxonomyPress
