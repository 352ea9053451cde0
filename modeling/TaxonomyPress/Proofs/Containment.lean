import TaxonomyPress.Proofs.Addresses
import TaxonomyPress.Proofs.CanonicalPath
import TaxonomyPress.Proofs.FileWriting
import TaxonomyPress.Tree.Generate

/-!
# Writing below the output directory

* `FileTree.changes_writeDocuments` : documents with safe paths change nothing outside of it;
* `Taxonomy.output_stays_below` : when a build has such paths only, and what a run then changes;
* `Taxonomy.title_replaces_directory` : a title that begins with `/` leads out of it.
-/

namespace TaxonomyPress

namespace FileTree

/-- What is written where. -/
def documentTexts (out : UnixPath) (documents : List Document) (print : Json → String) :
    List (UnixPath × String) :=
  documents.map fun document => (out.join document.path, documentText print document.body)

variable {tree after : FileTree} {out : UnixPath} {documents : List Document}
  {print : Json → String}

theorem writeDocuments_eq {outcome : Except FileError Unit}
    (h : tree.writeTexts (documentTexts out documents print) = (after, outcome)) :
    tree.writeDocuments out documents print = (after, outcome.map fun _ => documents.length) := by
  unfold documentTexts at h
  unfold writeDocuments
  rw [h]

theorem writeDocuments_eq_ok {count : Nat}
    (h : tree.writeDocuments out documents print = (after, .ok count)) :
    tree.writeTexts (documentTexts out documents print) = (after, .ok ()) ∧
      count = documents.length := by
  cases htexts : tree.writeTexts (documentTexts out documents print) with
  | mk written outcome =>
  rw [writeDocuments_eq htexts] at h
  cases outcome with
  | error e => cases h
  | ok _ =>
    cases h
    exact ⟨rfl, rfl⟩

/-- **Safe documents** are written below the directory, and directories are made below it and on the
way to it only. -/
theorem changes_writeDocuments (tree : FileTree) (out : UnixPath) (print : Json → String)
    (h : ∀ d ∈ documents, d.path.isSafe = true ∧ d.path.components ≠ []) :
    tree.Changes (tree.writeDocuments out documents print).1
      (fun place => place ∈ waypoints out ∨ Below out place) (Below out) := by
  cases htexts : tree.writeTexts (documentTexts out documents print) with
  | mk after outcome =>
  rw [writeDocuments_eq htexts]
  refine (changes_writeTexts htexts).mono ?_ ?_
  · rintro place ⟨entry, hentry, hway⟩
    obtain ⟨d, hd, rfl⟩ := List.mem_map.1 hentry
    obtain ⟨hsafe, hnames⟩ := h d hd
    rcases hway.of_join hsafe hnames with hout | ⟨names, hne, -, rfl⟩
    · exact Or.inl hout
    · exact Or.inr ⟨names, hne, rfl⟩
  · rintro place ⟨entry, hentry, rfl⟩
    obtain ⟨d, hd, rfl⟩ := List.mem_map.1 hentry
    obtain ⟨hsafe, hnames⟩ := h d hd
    exact ⟨d.path.components, hnames, placeOf_join hsafe⟩

end FileTree

namespace Taxonomy

variable {T : Taxonomy} {settings : Settings}

/-- A document lies in the directory of its section. -/
theorem components_ne_nil_of_isSafe {d : Document} (hd : d ∈ (T.build settings).documents)
    (hsafe : d.path.isSafe = true) : d.path.components ≠ [] := by
  obtain ⟨⟨area, l⟩, ha, hpath⟩ := exists_address_of_mem_documents hd
  have hl : l ≠ [] := ne_nil_of_mem_buildAddresses ha
  rw [← hpath] at hsafe ⊢
  have htitles : SafeTitles l := (isSafe_documentPath_iff area l).1 hsafe
  show (documentPath area l).components ≠ []
  rw [components_documentPath area hl htitles.relative]
  exact List.cons_ne_nil _ _

/-- **Where output goes**: all documents have relative paths without `..` just when the titles along
the lineages are safe, and the canonical identifiers give no `..` before the last title. Then a run
writes below its directory only, and makes directories below it and on the way to it, whether it comes
to its end or not. -/
theorem output_stays_below (T : Taxonomy) (settings : Settings) (print : Json → String) :
    ((∀ d ∈ (T.build settings).documents, d.path.isSafe = true) ↔
      ∀ n ∈ T.classes, ∀ lineages bodies id, T.Built settings n lineages bodies id →
        (∀ l ∈ lineages, SafeTitles l ∧ (T.hasChildren n → SafeTitles (l ++ ["index"]))) ∧
          ".." ∉ (canonicalLineage id).dropLast) ∧
      ((∀ d ∈ (T.build settings).documents, d.path.isSafe = true) → ∀ tree out,
        FileTree.Changes tree (T.generate settings tree out print).1
          (fun place => place ∈ FileTree.waypoints out ∨ FileTree.Below out place)
          (FileTree.Below out)) := by
  refine ⟨isSafe_documents_iff, fun hsafe tree out => ?_⟩
  have htree : (T.generate settings tree out print).1 =
      (tree.writeDocuments out (T.build settings).documents print).1 := by
    unfold generate
    dsimp only
  rw [htree]
  exact FileTree.changes_writeDocuments tree out print fun d hd =>
    ⟨hsafe d hd, components_ne_nil_of_isSafe hd (hsafe d hd)⟩

/-- A class of the estate is built just if it has a name, and then as its row says. -/
theorem built_estate_iff {n : Node} (hn : n ∈ estate.classes) {lineages : List Lineage} {id : String} :
    (∃ bodies, estate.Built estateSettings n lineages bodies id) ↔
      (n, lineages, id) ∈ estateClasses := by
  constructor
  · rintro ⟨bodies, hbuilt⟩
    rw [classes_estate, List.mem_append, List.mem_map] at hn
    rcases hn with ⟨c, hc, rfl⟩ | hn
    · have hlineages := Except.ok.inj ((lineages_estate c hc).symm.trans hbuilt.lineages_eq)
      have hid := Except.ok.inj ((canonicalId_estate c hc).symm.trans hbuilt.canonicalId_eq)
      rwa [← hlineages, ← hid]
    · obtain rfl := List.mem_singleton.1 hn
      exact absurd hbuilt.canonicalId_eq nofun
  · intro hc
    obtain ⟨bodies, hbodies⟩ := exists_classBodies_estate _ hc
    exact ⟨bodies, lineages_estate _ hc, hbodies, canonicalId_estate _ hc⟩

theorem isSafe_estate : ∀ d ∈ (estate.build estateSettings).documents, d.path.isSafe = true := by
  have hnames : ∀ c ∈ estateClasses,
      (∀ l ∈ c.2.1, ∀ t ∈ l ++ ["index"], '/' ∉ t.toList ∧ ".." ≠ t) ∧
        ".." ∉ (canonicalLineage c.2.2).dropLast := by decide +kernel
  refine isSafe_documents_iff.2 fun n hn lineages bodies id hbuilt => ?_
  obtain ⟨htitles, hfragment⟩ := hnames _ ((built_estate_iff hn).1 ⟨bodies, hbuilt⟩)
  refine ⟨fun l hl => ?_, hfragment⟩
  have hindex : SafeTitles (l ++ ["index"]) := by
    refine .of_slash_notMem (fun t ht => (htitles l hl t ht).1) fun hup => ?_
    exact (htitles l hl ".." (List.dropLast_subset _ hup)).2 rfl
  have hfile : SafeTitles l := by
    refine .of_slash_notMem (fun t ht => (htitles l hl t (List.mem_append_left _ ht)).1) fun hup => ?_
    exact (htitles l hl ".." (List.mem_append_left _ (List.dropLast_subset _ hup))).2 rfl
  exact ⟨hfile, fun _ => hindex⟩

/-- The documents of the estate, with the indexes of the classes above others, are written below the
directory. -/
theorem estate_stays_below :
    (∀ d ∈ (estate.build estateSettings).documents, d.path.isSafe = true) ∧
      FileTree.empty.Changes (estate.generate estateSettings FileTree.empty ⟨"out"⟩ Json.pretty).1
        (fun place => place ∈ FileTree.waypoints ⟨"out"⟩ ∨ FileTree.Below ⟨"out"⟩ place)
        (FileTree.Below ⟨"out"⟩) := by
  obtain ⟨-, hchanges⟩ := output_stays_below estate estateSettings Json.pretty
  exact ⟨isSafe_estate, hchanges isSafe_estate FileTree.empty ⟨"out"⟩⟩

/-! ## A title that leads out -/

/-- A title that begins with `/` replaces the directory. -/
theorem title_replaces_directory :
    ∃ d ∈ ((soleClass "http://x/o#/etc/foo").build {}).documents,
      d.path = ⟨"/etc/foo.jsonld"⟩ ∧ d.path.isSafe = false := by
  have hsplit : (soleClass "http://x/o#/etc/foo").split (.ofClass (.iri "http://x/o#/etc/foo")) =
      .ok ("o", "/etc/foo") := by decide
  obtain ⟨bodies, hbuilt⟩ :=
    exists_built_of_root {} (realParents_soleClass _ _) hsplit (allProperties_soleClass _ _)
  have hclass :
      .ofClass (.iri "http://x/o#/etc/foo") ∈ (soleClass "http://x/o#/etc/foo").classes := by
    decide
  obtain ⟨hd, -⟩ := vocabulary_mem_build_iff.2
    ⟨_, hclass, _, bodies, _, hbuilt, ["/etc/foo"], List.mem_singleton_self _, rfl⟩
  have hpath : documentPath .vocabulary ["/etc/foo"] = ⟨"/etc/foo.jsonld"⟩ := by decide
  exact ⟨_, hd, hpath, congrArg UnixPath.isSafe hpath⟩

end Taxonomy

end TaxonomyPress
