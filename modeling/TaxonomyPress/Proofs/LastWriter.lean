import Mathlib.Data.List.Find
import TaxonomyPress.Proofs.Containment
import TaxonomyPress.Proofs.Overwriting

/-!
# Documents that share a path

Safe paths lead to one place just when they have the same components
(`FileTree.placeOf_join_inj`), so the last document with given components is the one whose text
stays.

* `lastAt` : that document; it says which text a run leaves at a place
  (`FileTree.lastText?_documentTexts`);
* `FileTree.documents_last_writer` : what writing documents does to a tree, whether it comes to its
  end or not, and that writing them again changes nothing.
-/

namespace TaxonomyPress

/-- The last of the documents with the components of `path`. -/
def lastAt (documents : List Document) (path : UnixPath) : Option Document :=
  documents.reverse.find? fun d => d.path.components = path.components

namespace FileTree

variable {tree after : FileTree} {out : UnixPath} {documents : List Document}
  {print : Json → String}

theorem placeOf_join_inj {a b : UnixPath} (ha : a.isSafe = true) (hb : b.isSafe = true) :
    placeOf (out.join a) = placeOf (out.join b) ↔ a.components = b.components := by
  rw [placeOf_join ha, placeOf_join hb, List.append_right_inj]

theorem lastText?_documentTexts (hsafe : ∀ d ∈ documents, d.path.isSafe = true) {path : UnixPath}
    (hpath : path.isSafe = true) :
    lastText? (documentTexts out documents print) (placeOf (out.join path)) =
      (lastAt documents path).map fun d => documentText print d.body := by
  have hfind : documents.reverse.find? (fun d => placeOf (out.join d.path) = placeOf (out.join path)) =
      lastAt documents path :=
    List.find?_congr fun d hd => decide_eq_decide.2
      (placeOf_join_inj (hsafe d (List.mem_reverse.1 hd)) hpath)
  unfold lastText? documentTexts
  rw [← List.map_reverse, List.find?_map, Option.map_map, ← hfind]
  simp only [Function.comp_def]

theorem writeDocuments_eq_error {e : FileError}
    (h : tree.writeDocuments out documents print = (after, .error e)) :
    tree.writeTexts (documentTexts out documents print) = (after, .error e) := by
  cases htexts : tree.writeTexts (documentTexts out documents print) with
  | mk written outcome =>
  rw [writeDocuments_eq htexts] at h
  cases outcome with
  | error e =>
    cases h
    rfl
  | ok _ => cases h

/-- **The last writer**: a run over safe paths that comes to its end leaves in each file of a document
the text of the last one with that path, keeps all other files and brings no other, and changes
nothing when it is made again. A run that fails at one of them leaves the files that it leaves when
it is made with those before, and besides new directories at most. -/
theorem documents_last_writer (tree : FileTree) (out : UnixPath) (print : Json → String)
    {documents : List Document} (hsafe : ∀ d ∈ documents, d.path.isSafe = true) :
    (∀ after count, tree.writeDocuments out documents print = (after, .ok count) →
      count = documents.length ∧
      (∀ d ∈ documents, ∃ last, lastAt documents d.path = some last ∧
        after.read? (out.join d.path) = some (documentText print last.body)) ∧
      (∀ place, (∀ d ∈ documents, placeOf out ++ d.path.components ≠ place) → ∀ text,
        after.entry? place = some (.file text) ↔ tree.entry? place = some (.file text)) ∧
      after.writeDocuments out documents print = (after, .ok count)) ∧
    ∀ after e, tree.writeDocuments out documents print = (after, .error e) →
      ∃ i < documents.length, ∃ between,
        tree.writeDocuments out (documents.take i) print = (between, .ok i) ∧
        after.files = between.files ∧
        ∀ place, after.entry? place = between.entry? place ∨
          between.entry? place = none ∧ after.entry? place = some .directory := by
  refine ⟨fun after count hrun => ?_, fun after e hrun => ?_⟩
  · obtain ⟨htexts, hcount⟩ := writeDocuments_eq_ok hrun
    refine ⟨hcount, fun d hd => ?_, fun place hplace text => ?_, ?_⟩
    · have hentry :
          (out.join d.path, documentText print d.body) ∈ documentTexts out documents print :=
        List.mem_map.2 ⟨d, hd, rfl⟩
      obtain ⟨text, hlast, hread⟩ := exists_read?_of_writeTexts htexts _ hentry
      rw [lastText?_documentTexts hsafe (hsafe d hd), Option.map_eq_some_iff] at hlast
      obtain ⟨last, hlast, rfl⟩ := hlast
      exact ⟨last, hlast, hread⟩
    · refine (changes_writeTexts htexts).file_iff ?_ text
      rintro ⟨entry, hentry, rfl⟩
      obtain ⟨d, hd, rfl⟩ := List.mem_map.1 hentry
      exact hplace d hd (placeOf_join (hsafe d hd)).symm
    · rw [writeDocuments_eq (writeTexts_again htexts), hcount]
      rfl
  · obtain ⟨i, between, entry, hentry, hbegun, hfails⟩ :=
      exists_of_writeTexts_error (writeDocuments_eq_error hrun)
    obtain ⟨hi, -⟩ := List.getElem?_eq_some_iff.1 hentry
    obtain ⟨hfiles, hchanges⟩ := changes_of_writeText_error hfails
    rw [documentTexts, List.length_map] at hi
    rw [documentTexts, ← List.map_take] at hbegun
    refine ⟨i, hi, between, ?_, hfiles, fun place => ?_⟩
    · rw [writeDocuments_eq hbegun, List.length_take_of_le (Nat.le_of_lt hi)]
      rfl
    · exact (hchanges.eq_or_directory id).imp_right And.right

/-- Two documents, the second at another spelling of the path of the first, or below it. -/
def twoDocuments (path : String) : List Document :=
  [⟨.vocabulary, ⟨"a/b.jsonld"⟩, .null⟩, ⟨.vocabulary, ⟨path⟩, .boolean true⟩]

/-- The second text stays, along both spellings, and a document below another is not written. -/
theorem second_spelling_stays : ∃ after,
    FileTree.empty.writeDocuments ⟨"out"⟩ (twoDocuments "a//b.jsonld") = (after, .ok 2) ∧
    after.read? ⟨"out/a/b.jsonld"⟩ = some "true\n" ∧
    after.writeDocuments ⟨"out"⟩ (twoDocuments "a//b.jsonld") = (after, .ok 2) ∧
    ∃ failed e, FileTree.empty.writeDocuments ⟨"out"⟩ (twoDocuments "a/b.jsonld/c.jsonld") =
        (failed, .error e) ∧
      ∃ i < 2, ∃ between, failed.files = between.files ∧
        FileTree.empty.writeDocuments ⟨"out"⟩ ((twoDocuments "a/b.jsonld/c.jsonld").take i) =
          (between, .ok i) := by
  have hsafe : ∀ path ∈ ["a//b.jsonld", "a/b.jsonld/c.jsonld"], ∀ d ∈ twoDocuments path,
      d.path.isSafe = true := by decide +kernel
  have hrun : FileTree.empty.writeDocuments ⟨"out"⟩ (twoDocuments "a//b.jsonld") =
      ((FileTree.empty.writeDocuments ⟨"out"⟩ (twoDocuments "a//b.jsonld")).1, .ok 2) :=
    Prod.ext rfl (by rfl)
  have hfails : FileTree.empty.writeDocuments ⟨"out"⟩ (twoDocuments "a/b.jsonld/c.jsonld") =
      ((FileTree.empty.writeDocuments ⟨"out"⟩ (twoDocuments "a/b.jsonld/c.jsonld")).1,
        .error (.cannotCreateDirectory ⟨"out/a/b.jsonld"⟩)) := Prod.ext rfl (by rfl)
  obtain ⟨-, hlast, -, hagain⟩ := (documents_last_writer FileTree.empty ⟨"out"⟩ Json.pretty
    (hsafe _ List.mem_cons_self)).1 _ _ hrun
  obtain ⟨i, hi, between, hbegun, hfiles, -⟩ := (documents_last_writer FileTree.empty ⟨"out"⟩ Json.pretty
    (hsafe _ (List.mem_cons_of_mem _ List.mem_cons_self))).2 _ _ hfails
  obtain ⟨last, hfind, hread⟩ := hlast _ List.mem_cons_self
  obtain rfl : (⟨.vocabulary, ⟨"a//b.jsonld"⟩, .boolean true⟩ : Document) = last :=
    Option.some.inj hfind
  exact ⟨_, hrun, hread, hagain, _, _, hfails, i, hi, between, hfiles, hbegun⟩

end FileTree

end TaxonomyPress
