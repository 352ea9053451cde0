import TaxonomyPress.Document.Layout
import TaxonomyPress.Proofs.Pieces

/-!
# The names along a path

* `Text.segments_join` : joined texts are cut into their pieces again;
* `namesOf` : the names in a text; two texts with `/` between them have the names of both;
* `UnixPath.components_push`, `UnixPath.isAbsolute_push` : how a component goes on;
* `UnixPath.components_parent` : a parent has the names without the last one;
* `UnixPath.size_foldl_push_le` : how long a path gets;
* `fileNames` : the names that lead from a section to the file of a lineage
  (`components_documentPath`); an index is the document `index` of its lineage
  (`indexPath_eq_documentPath`);
* `SafeTitles` : the titles whose document stays below its directory
  (`isSafe_documentPath_iff`), and when those of a canonical identifier are such
  (`safeTitles_canonicalLineage_iff`).
-/

namespace TaxonomyPress

/-! ## Pieces -/

theorem segments_append_cons {α : Type} [DecidableEq α] (c : α) (front rest : List α) :
    segments c (front ++ c :: rest) = segments c front ++ segments c rest := by
  induction front with
  | nil => simp [segments]
  | cons d front ih =>
    rw [List.cons_append, segments, segments, ih]
    split
    · rfl
    · cases h : segments c front with
      | nil => exact absurd h (segments_ne_nil c front)
      | cons piece pieces => rfl

theorem segments_of_notMem {α : Type} [DecidableEq α] {c : α} {cs : List α} (h : c ∉ cs) :
    segments c cs = [cs] := by
  induction cs with
  | nil => rfl
  | cons d cs ih =>
    have hd : d ≠ c := fun hd => h (hd ▸ List.mem_cons_self)
    rw [segments, if_neg hd, ih fun hc => h (List.mem_cons_of_mem d hc)]

theorem notMem_of_mem_segments {α : Type} [DecidableEq α] {c : α} {cs piece : List α}
    (h : piece ∈ segments c cs) : c ∉ piece := by
  induction cs generalizing piece with
  | nil =>
    rw [segments, List.mem_singleton] at h
    rw [h]
    exact List.not_mem_nil
  | cons d cs ih =>
    rw [segments] at h
    split at h
    · rcases List.mem_cons.1 h with rfl | h
      · exact List.not_mem_nil
      · exact ih h
    · rename_i hd
      cases hcs : segments c cs with
      | nil => exact absurd hcs (segments_ne_nil c cs)
      | cons first rest =>
        rw [hcs] at h ih
        rcases List.mem_cons.1 h with rfl | h
        · rw [List.mem_cons, not_or]
          exact ⟨fun hc => hd hc.symm, ih List.mem_cons_self⟩
        · exact ih (List.mem_cons_of_mem _ h)

theorem Text.segments_of_notMem {c : Char} {s : String} (h : c ∉ s.toList) :
    Text.segments c s = [s] := by
  unfold Text.segments
  rw [TaxonomyPress.segments_of_notMem h, List.map_singleton, String.ofList_toList]

/-- What is joined from texts is cut into the pieces of each. -/
theorem Text.segments_join_eq_flatMap {c : Char} {separator : String}
    (hseparator : separator.toList = [c]) {pieces : List String} (hne : pieces ≠ []) :
    Text.segments c (Text.join separator pieces) = pieces.flatMap (Text.segments c) := by
  induction pieces with
  | nil => exact absurd rfl hne
  | cons piece pieces ih =>
    by_cases hlast : pieces = []
    · subst hlast
      rw [Text.join, List.flatMap_singleton]
    · rw [List.flatMap_cons, ← ih hlast, Text.join_cons hlast]
      unfold Text.segments
      rw [String.toList_append, String.toList_append, hseparator, List.append_assoc,
        List.singleton_append, segments_append_cons, List.map_append]

/-- Joined pieces are cut into the pieces again, if none has the separator. -/
theorem Text.segments_join {c : Char} {separator : String} (hseparator : separator.toList = [c])
    {pieces : List String} (hne : pieces ≠ []) (h : ∀ piece ∈ pieces, c ∉ piece.toList) :
    Text.segments c (Text.join separator pieces) = pieces := by
  have hpieces : pieces.map (Text.segments c) = pieces.map fun piece => [piece] :=
    List.map_congr_left fun piece hpiece => Text.segments_of_notMem (h piece hpiece)
  rw [Text.segments_join_eq_flatMap hseparator hne, List.flatMap_def, hpieces, ← List.flatMap_def,
    List.flatMap_singleton']

/-- A text without separator makes the last piece longer. -/
theorem segments_append_of_notMem {α : Type} [DecidableEq α] {c : α} (front : List α)
    {back : List α} (h : c ∉ back) : ∃ pieces last, segments c front = pieces ++ [last] ∧
      segments c (front ++ back) = pieces ++ [last ++ back] := by
  induction front with
  | nil => exact ⟨[], [], rfl, segments_of_notMem h⟩
  | cons d front ih =>
    obtain ⟨pieces, last, hfront, hall⟩ := ih
    rw [List.cons_append, segments, segments, hfront, hall]
    split
    · exact ⟨[] :: pieces, last, rfl, rfl⟩
    · cases pieces with
      | nil => exact ⟨[], d :: last, rfl, rfl⟩
      | cons piece pieces => exact ⟨(d :: piece) :: pieces, last, rfl, rfl⟩

/-! ## Names -/

/-- The names in a text, read as a path. -/
def namesOf (cs : List Char) : List String :=
  ((segments '/' cs).map String.ofList).filter fun name => name ≠ "" && name ≠ "."

theorem namesOf_append_slash (front rest : List Char) :
    namesOf (front ++ '/' :: rest) = namesOf front ++ namesOf rest := by
  unfold namesOf
  rw [segments_append_cons, List.map_append, List.filter_append]

theorem namesOf_of_notMem {cs : List Char} (h : '/' ∉ cs) (hempty : cs ≠ []) (hdot : cs ≠ ['.']) :
    namesOf cs = [String.ofList cs] := by
  have hne : String.ofList cs ≠ "" := fun heq => hempty (by simpa using congrArg String.toList heq)
  have hne' : String.ofList cs ≠ "." := fun heq => hdot (by simpa using congrArg String.toList heq)
  unfold namesOf
  rw [segments_of_notMem h]
  simp [hne, hne']

theorem startsWith_slash_iff {s : String} :
    Text.startsWith "/" s = true ↔ ∃ rest, s.toList = '/' :: rest := by
  rw [Text.startsWith, Option.isSome_iff_exists]
  constructor
  · rintro ⟨rest, hrest⟩
    rw [Text.dropPrefix_eq_some_iff] at hrest
    exact ⟨rest.toList, by rw [← hrest]; simp⟩
  · rintro ⟨rest, hrest⟩
    refine ⟨String.ofList rest, Text.dropPrefix_eq_some_iff.2 (String.toList_inj.1 ?_)⟩
    simp [hrest]

/-- What follows a text that is not empty does not change how it begins. -/
theorem startsWith_slash_append {s : String} (h : s ≠ "") (t : String) :
    Text.startsWith "/" (s ++ t) = Text.startsWith "/" s := by
  rw [Bool.eq_iff_iff, startsWith_slash_iff, startsWith_slash_iff, String.toList_append]
  cases hs : s.toList with
  | nil => exact absurd (String.toList_inj.1 hs) h
  | cons c cs => simp

theorem endsWith_slash_iff {s : String} :
    (Text.dropSuffix "/" s).isSome ↔ ∃ front, s.toList = front ++ ['/'] := by
  unfold Text.dropSuffix
  rw [Option.isSome_map, Option.isSome_iff_exists]
  constructor
  · rintro ⟨rest, hrest⟩
    rw [TaxonomyPress.dropPrefix_eq_some_iff] at hrest
    exact ⟨rest.reverse, by rw [← List.reverse_inj, ← hrest]; simp⟩
  · rintro ⟨front, hfront⟩
    refine ⟨front.reverse, TaxonomyPress.dropPrefix_eq_some_iff.2 ?_⟩
    simp [hfront]

namespace UnixPath

/-- A relative component goes on from the path, with its names behind those of the path. -/
theorem push_of_relative {path : UnixPath} {component : String}
    (h : Text.startsWith "/" component = false) :
    ((path.push component).isAbsolute = path.isAbsolute) ∧
      (path.push component).components = path.components ++ components ⟨component⟩ := by
  unfold push
  rw [if_neg (by rw [h]; decide)]
  split
  · rename_i hpath
    rcases hpath with hempty | hslash
    · obtain ⟨text⟩ := path
      obtain rfl : text = "" := hempty
      rw [String.empty_append]
      exact ⟨h, rfl⟩
    · obtain ⟨front, hfront⟩ := endsWith_slash_iff.1 hslash
      have hne : path.text ≠ "" := by
        intro hempty
        rw [hempty] at hfront
        simp at hfront
      refine ⟨startsWith_slash_append hne component, ?_⟩
      show namesOf (path.text ++ component).toList = namesOf path.text.toList ++ _
      rw [String.toList_append, hfront, List.append_assoc]
      show namesOf (front ++ '/' :: component.toList) = namesOf (front ++ '/' :: []) ++ _
      rw [namesOf_append_slash, namesOf_append_slash, List.append_assoc]
      rfl
  · rename_i hpath
    refine ⟨?_, ?_⟩
    · show Text.startsWith "/" (path.text ++ "/" ++ component) = Text.startsWith "/" path.text
      rw [String.append_assoc]
      exact startsWith_slash_append (fun hempty => hpath (Or.inl hempty)) _
    · show namesOf (path.text ++ "/" ++ component).toList = _
      have htext : (path.text ++ "/" ++ component).toList =
          path.text.toList ++ '/' :: component.toList := by simp
      rw [htext, namesOf_append_slash]
      rfl

theorem components_push {path : UnixPath} {component : String}
    (h : Text.startsWith "/" component = false) :
    (path.push component).components = path.components ++ components ⟨component⟩ :=
  (push_of_relative h).2

/-- A path becomes absolute with one component, and stays so. -/
theorem isAbsolute_push (path : UnixPath) (component : String) :
    (path.push component).isAbsolute = (path.isAbsolute || Text.startsWith "/" component) := by
  cases h : Text.startsWith "/" component with
  | false => rw [(push_of_relative h).1, Bool.or_false]
  | true =>
    unfold push
    rw [if_pos h, Bool.or_true]
    exact h

theorem isAbsolute_foldl_push (path : UnixPath) (titles : List String) :
    (titles.foldl push path).isAbsolute =
      (path.isAbsolute || titles.any (Text.startsWith "/")) := by
  induction titles generalizing path with
  | nil => simp
  | cons title titles ih => rw [List.foldl_cons, ih, isAbsolute_push, List.any_cons, Bool.or_assoc]

theorem components_foldl_push (path : UnixPath) {titles : List String}
    (h : titles.any (Text.startsWith "/") = false) :
    (titles.foldl push path).components =
      path.components ++ titles.flatMap fun title => components ⟨title⟩ := by
  induction titles generalizing path with
  | nil => simp
  | cons title titles ih =>
    rw [List.any_cons, Bool.or_eq_false_iff] at h
    rw [List.foldl_cons, ih _ h.2, components_push h.1, List.flatMap_cons, List.append_assoc]

/-- A path ends with what was added last. -/
theorem exists_text_push (path : UnixPath) (component : String) :
    ∃ front, (path.push component).text = front ++ component := by
  unfold push
  split
  · exact ⟨"", (String.empty_append).symm⟩
  · split
    · exact ⟨path.text, rfl⟩
    · exact ⟨path.text ++ "/", rfl⟩

/-! ## Parents -/

theorem namesOf_append_dot (front : List Char) : namesOf (front ++ ['/', '.']) = namesOf front := by
  show namesOf (front ++ '/' :: ['.']) = _
  rw [namesOf_append_slash]
  simp [namesOf, segments]

theorem namesOf_concat_slash (front : List Char) : namesOf (front ++ ['/']) = namesOf front := by
  rw [namesOf_append_slash]
  simp [namesOf, segments]

theorem trimmedBack_eq_self {cs : List Char} (hslash : ∀ c rest, cs = '/' :: c :: rest → False)
    (hdot : ∀ c rest, cs = '.' :: '/' :: c :: rest → False) : trimmedBack cs = cs := by
  rw [trimmedBack]
  · exact hslash
  · exact hdot

/-- Trimming takes nothing that is a name. -/
theorem namesOf_trimmedBack (cs : List Char) :
    namesOf (trimmedBack cs).reverse = namesOf cs.reverse := by
  induction cs using trimmedBack.induct with
  | case1 c cs ih =>
    have hslash : ('/' :: c :: cs).reverse = (c :: cs).reverse ++ ['/'] := List.reverse_cons
    rw [trimmedBack, ih, hslash, namesOf_concat_slash]
  | case2 c cs ih =>
    have hdot : ('.' :: '/' :: c :: cs).reverse = (c :: cs).reverse ++ ['/', '.'] := by simp
    rw [trimmedBack, ih, hdot, namesOf_append_dot]
  | case3 cs h1 h2 => rw [trimmedBack_eq_self h1 h2]

theorem trimmedBack_suffix (cs : List Char) : trimmedBack cs <:+ cs := by
  induction cs using trimmedBack.induct with
  | case1 c cs ih =>
    rw [trimmedBack]
    exact ih.trans (List.suffix_cons _ _)
  | case2 c cs ih =>
    rw [trimmedBack]
    exact ih.trans ((List.suffix_cons _ _).trans (List.suffix_cons _ _))
  | case3 cs h1 h2 =>
    have hself : trimmedBack cs = cs := trimmedBack_eq_self h1 h2
    exact hself.symm ▸ List.suffix_refl cs

theorem trimmedBack_ne_nil {cs : List Char} (h : cs ≠ []) : trimmedBack cs ≠ [] := by
  induction cs using trimmedBack.induct with
  | case1 c cs ih =>
    rw [trimmedBack]
    exact ih (List.cons_ne_nil c cs)
  | case2 c cs ih =>
    rw [trimmedBack]
    exact ih (List.cons_ne_nil c cs)
  | case3 cs h1 h2 =>
    rw [trimmedBack_eq_self h1 h2]
    exact h

/-- A trimmed text ends with a name, unless nothing stands before its separator. -/
theorem eq_nil_of_trimmedBack {cs rest : List Char}
    (h : trimmedBack cs = '/' :: rest ∨ trimmedBack cs = '.' :: '/' :: rest) : rest = [] := by
  induction cs using trimmedBack.induct with
  | case1 c cs ih =>
    rw [trimmedBack] at h
    exact ih h
  | case2 c cs ih =>
    rw [trimmedBack] at h
    exact ih h
  | case3 cs h1 h2 =>
    rw [trimmedBack_eq_self h1 h2] at h
    cases rest with
    | nil => rfl
    | cons c rest =>
      rcases h with h | h
      · exact (h1 c rest h).elim
      · exact (h2 c rest h).elim

/-- The two parts of a text at a separator, which begins the second. -/
theorem exists_cut_at_slash (cs : List Char) : ∃ front, '/' ∉ front ∧
    cs = front ++ cs.dropWhile (· != '/') ∧
    (cs.dropWhile (· != '/') = [] ∨ ∃ rest, cs.dropWhile (· != '/') = '/' :: rest) := by
  induction cs with
  | nil => exact ⟨[], List.not_mem_nil, rfl, Or.inl rfl⟩
  | cons c cs ih =>
    rw [List.dropWhile_cons]
    split
    · rename_i hc
      obtain ⟨front, hfront, hcs, hrest⟩ := ih
      refine ⟨c :: front, ?_, by rw [List.cons_append, ← hcs], hrest⟩
      rw [List.mem_cons, not_or]
      exact ⟨fun h => by simp [← h] at hc, hfront⟩
    · rename_i hc
      obtain rfl : c = '/' := by simpa using hc
      exact ⟨[], List.not_mem_nil, rfl, Or.inr ⟨cs, rfl⟩⟩

/-- A trimmed text and its parent, around the last separator. -/
theorem exists_cut_of_parent {path q : UnixPath} (h : path.parent = some q) :
    ∃ last before, trimmedBack path.text.toList.reverse = last ++ before ∧
      last ++ before ≠ [] ∧ last ++ before ≠ ['/'] ∧ '/' ∉ last ∧
      (before = [] ∨ ∃ rest, before = '/' :: rest) ∧
      q = ⟨String.ofList (trimmedBack before).reverse⟩ := by
  unfold parent at h
  split at h
  · cases h
  · cases h
  · rename_i hempty hroot
    obtain ⟨last, hlast, hback, hbefore⟩ :=
      exists_cut_at_slash (trimmedBack path.text.toList.reverse)
    refine ⟨last, _, hback, ?_, ?_, hlast, hbefore, (Option.some.inj h).symm⟩
    · rw [← hback]
      exact hempty
    · rw [← hback]
      exact hroot

/-- A parent has the names without the last one. -/
theorem components_parent {path q : UnixPath} (h : path.parent = some q) :
    q.components = path.components.dropLast := by
  obtain ⟨last, before, hback, hne, hroot, hlast, hbefore, rfl⟩ := exists_cut_of_parent h
  have hnames : path.components = namesOf (last ++ before).reverse := by
    rw [← hback, namesOf_trimmedBack, List.reverse_reverse]
    rfl
  have hq : components ⟨String.ofList (trimmedBack before).reverse⟩ = namesOf before.reverse := by
    rw [← namesOf_trimmedBack]
    show namesOf (String.ofList _).toList = _
    rw [String.toList_ofList]
  have hlast' : '/' ∉ last.reverse := fun hslash => hlast (List.mem_reverse.1 hslash)
  rw [hnames, hq, List.reverse_append]
  rcases hbefore with rfl | ⟨rest, rfl⟩
  · have hone : (namesOf last.reverse).length ≤ 1 := by
      unfold namesOf
      rw [segments_of_notMem hlast']
      exact (List.length_filter_le _ _)
    rw [List.reverse_nil, List.nil_append, eq_comm]
    exact List.eq_nil_of_length_eq_zero (by rw [List.length_dropLast]; omega)
  · rw [List.reverse_cons, namesOf_concat_slash, List.append_assoc, List.singleton_append,
      namesOf_append_slash]
    by_cases hdot : last = ['.']
    · obtain rfl : rest = [] := eq_nil_of_trimmedBack (Or.inr (by rw [hback, hdot]; rfl))
      subst hdot
      decide
    · have hempty : last ≠ [] := by
        rintro rfl
        obtain rfl : rest = [] := eq_nil_of_trimmedBack (Or.inl hback)
        exact hroot rfl
      rw [namesOf_of_notMem hlast' (by simpa using hempty) (by simpa using hdot),
        List.dropLast_concat]

theorem exists_append_of_suffix {cs : List Char} {text : String} (h : cs <:+ text.toList.reverse) :
    ∃ more, text = String.ofList cs.reverse ++ more := by
  obtain ⟨front, hfront⟩ := h
  refine ⟨String.ofList front.reverse, String.toList_inj.1 ?_⟩
  rw [String.toList_append, String.toList_ofList, String.toList_ofList, ← List.reverse_append,
    hfront, List.reverse_reverse]

/-- The text of a parent is a beginning of that of the path, empty only for a lone name. -/
theorem exists_text_parent {path q : UnixPath} (h : path.parent = some q) :
    ∃ more, path.text = q.text ++ more ∧ (q.text = "" → path.isAbsolute = false) := by
  obtain ⟨last, before, hback, hne, hroot, hlast, hbefore, rfl⟩ := exists_cut_of_parent h
  have hsuffix : last ++ before <:+ path.text.toList.reverse := by
    rw [← hback]
    exact trimmedBack_suffix _
  obtain ⟨more, hmore⟩ := exists_append_of_suffix
    ((trimmedBack_suffix before).trans ((List.suffix_append last before).trans hsuffix))
  refine ⟨more, hmore, fun hempty => ?_⟩
  have hnil : before = [] := by
    cases before with
    | nil => rfl
    | cons c rest =>
      have hcut : (trimmedBack (c :: rest)).reverse = [] := by
        simpa using congrArg String.toList hempty
      exact absurd (List.reverse_eq_nil_iff.1 hcut) (trimmedBack_ne_nil (List.cons_ne_nil c rest))
  subst hnil
  rw [List.append_nil] at hne hsuffix
  obtain ⟨more', hmore'⟩ := exists_append_of_suffix hsuffix
  have hname : String.ofList last.reverse ≠ "" := fun heq =>
    hne (by simpa using congrArg String.toList heq)
  unfold isAbsolute
  rw [hmore', startsWith_slash_append hname, ← Bool.not_eq_true, startsWith_slash_iff]
  rintro ⟨rest, hrest⟩
  rw [String.toList_ofList] at hrest
  apply hlast
  rw [← List.mem_reverse, hrest]
  exact List.mem_cons_self

theorem isAbsolute_parent {path q : UnixPath} (h : path.parent = some q) :
    q.isAbsolute = path.isAbsolute := by
  obtain ⟨more, hmore, hempty⟩ := exists_text_parent h
  unfold isAbsolute
  by_cases hq : q.text = ""
  · rw [hq]
    exact (hempty hq).symm
  · rw [hmore, startsWith_slash_append hq]

theorem parent_eq_none {path : UnixPath} (h : path.parent = none) : path.components = [] := by
  unfold parent at h
  have hnames : path.components = namesOf (trimmedBack path.text.toList.reverse).reverse := by
    rw [namesOf_trimmedBack, List.reverse_reverse]
    rfl
  rw [hnames]
  split at h
  · rename_i hback
    rw [hback]
    rfl
  · rename_i hback
    rw [hback]
    rfl
  · cases h

end UnixPath

/-! ## Lengths -/

namespace UnixPath

theorem size_push_le (path : UnixPath) (component : String) :
    (path.push component).text.utf8ByteSize ≤
      path.text.utf8ByteSize + (component.utf8ByteSize + 1) := by
  have hslash : "/".utf8ByteSize = 1 := rfl
  unfold push
  split
  · dsimp only
    omega
  · split
    · rw [String.utf8ByteSize_append]
      omega
    · rw [String.utf8ByteSize_append, String.utf8ByteSize_append, hslash]
      omega

theorem size_foldl_push_le {l : List String} {size : Nat} (h : ∀ t ∈ l, t.utf8ByteSize ≤ size)
    (path : UnixPath) :
    (l.foldl push path).text.utf8ByteSize ≤ path.text.utf8ByteSize + l.length * (size + 1) := by
  induction l generalizing path with
  | nil => exact Nat.le_add_right _ _
  | cons t l ih =>
    obtain ⟨ht, hl⟩ := List.forall_mem_cons.1 h
    have hpush := size_push_le path t
    have hrest := ih hl (path.push t)
    rw [List.foldl_cons, List.length_cons, Nat.succ_mul]
    omega

end UnixPath

/-! ## Paths of documents -/

@[simp] theorem Section.components_directory (area : Section) :
    UnixPath.components ⟨area.directory⟩ = [area.directory] := by
  cases area <;> decide

@[simp] theorem Section.isAbsolute_directory (area : Section) :
    UnixPath.isAbsolute ⟨area.directory⟩ = false := by
  cases area <;> decide

theorem Section.directory_inj {area area' : Section} :
    area.directory = area'.directory ↔ area = area' := by
  cases area <;> cases area' <;> decide

theorem documentPath_concat (area : Section) (l : Lineage) (title : String) :
    documentPath area (l ++ [title]) =
      (l.foldl UnixPath.push ⟨area.directory⟩).push (title ++ ".jsonld") := by
  unfold documentPath
  rw [List.getLast?_concat, List.dropLast_concat]

/-- The index of a lineage lies where the document of a child titled `index` would lie. -/
theorem indexPath_eq_documentPath (l : Lineage) :
    indexPath l = documentPath .vocabulary (l ++ ["index"]) := by
  rw [documentPath_concat]
  rfl

/-- The names that lead from a section to the document of a lineage. -/
def fileNames (l : Lineage) : List String :=
  (l.dropLast.flatMap fun title => UnixPath.components ⟨title⟩) ++
    UnixPath.components ⟨l.getLastD "" ++ ".jsonld"⟩

theorem fileNames_concat (l : Lineage) (title : String) :
    fileNames (l ++ [title]) =
      (l.flatMap fun title => UnixPath.components ⟨title⟩) ++
        UnixPath.components ⟨title ++ ".jsonld"⟩ := by
  unfold fileNames
  rw [List.dropLast_concat, List.getLastD_concat]

theorem startsWith_slash_append_ending (title : String) :
    Text.startsWith "/" (title ++ ".jsonld") = Text.startsWith "/" title := by
  by_cases h : title = ""
  · subst h
    decide
  · exact startsWith_slash_append h _

theorem any_startsWith_slash_eq_false {l : List String} (h : ∀ t ∈ l, '/' ∉ t.toList) :
    l.any (Text.startsWith "/") = false := by
  rw [List.any_eq_false]
  intro t ht hbegins
  obtain ⟨rest, hrest⟩ := startsWith_slash_iff.1 hbegins
  exact h t ht (hrest ▸ List.mem_cons_self)

theorem isAbsolute_documentPath (area : Section) (l : Lineage) :
    (documentPath area l).isAbsolute = l.any (Text.startsWith "/") := by
  rcases List.eq_nil_or_concat l with rfl | ⟨l, title, rfl⟩
  · exact Section.isAbsolute_directory area
  · rw [List.concat_eq_append, documentPath_concat, UnixPath.isAbsolute_push,
      UnixPath.isAbsolute_foldl_push, startsWith_slash_append_ending]
    simp

theorem components_documentPath (area : Section) {l : Lineage} (hl : l ≠ [])
    (h : l.any (Text.startsWith "/") = false) :
    (documentPath area l).components = area.directory :: fileNames l := by
  rcases List.eq_nil_or_concat l with rfl | ⟨l, title, rfl⟩
  · exact absurd rfl hl
  · rw [List.concat_eq_append] at h ⊢
    rw [List.any_append, Bool.or_eq_false_iff] at h
    have htitle : Text.startsWith "/" (title ++ ".jsonld") = false := by
      rw [startsWith_slash_append_ending]
      simpa using h.2
    rw [documentPath_concat, UnixPath.components_push htitle, UnixPath.components_foldl_push _ h.1,
      fileNames_concat, Section.components_directory]
    rfl

theorem exists_text_documentPath (area : Section) {l : Lineage} (hl : l ≠ []) :
    ∃ front, (documentPath area l).text = front ++ ".jsonld" := by
  rcases List.eq_nil_or_concat l with rfl | ⟨l, title, rfl⟩
  · exact absurd rfl hl
  · rw [List.concat_eq_append, documentPath_concat]
    obtain ⟨front, hfront⟩ := UnixPath.exists_text_push (l.foldl UnixPath.push ⟨area.directory⟩)
      (title ++ ".jsonld")
    exact ⟨front ++ title, by rw [hfront, String.append_assoc]⟩

/-! ## Safe paths -/

theorem up_mem_components_iff {text : String} :
    ".." ∈ UnixPath.components ⟨text⟩ ↔ ".." ∈ Text.segments '/' text := by
  unfold UnixPath.components
  rw [List.mem_filter]
  exact and_iff_left (by decide)

/-- The ending belongs to the last piece of a title. -/
theorem up_mem_components_append_ending {title : String} :
    ".." ∈ UnixPath.components ⟨title ++ ".jsonld"⟩ ↔
      ".." ∈ (Text.segments '/' title).dropLast := by
  have hending : '/' ∉ ".jsonld".toList := by decide
  obtain ⟨pieces, last, hfront, hall⟩ := segments_append_of_notMem title.toList hending
  rw [up_mem_components_iff]
  unfold Text.segments
  rw [String.toList_append, hall, hfront, List.map_append, List.map_append, List.map_singleton,
    List.map_singleton, List.dropLast_concat, List.mem_append, List.mem_singleton]
  refine or_iff_left fun h => ?_
  have hlength := congrArg (fun s : String => s.toList.length) h
  simp at hlength

/-- The titles of a lineage whose document stays below its directory: none begins with `/`, none
before the last has a piece `..`, and the last has none but as its last piece, which gets the
ending. -/
structure SafeTitles (l : Lineage) : Prop where
  relative : l.any (Text.startsWith "/") = false
  directories : ∀ title ∈ l.dropLast, ".." ∉ Text.segments '/' title
  file : ∀ title ∈ l.getLast?, ".." ∉ (Text.segments '/' title).dropLast

theorem SafeTitles.of_slash_notMem {l : Lineage} (hslash : ∀ title ∈ l, '/' ∉ title.toList)
    (hup : ".." ∉ l.dropLast) : SafeTitles l := by
  have hpiece : ∀ title ∈ l, Text.segments '/' title = [title] := fun title htitle =>
    Text.segments_of_notMem (hslash title htitle)
  constructor
  case relative => exact any_startsWith_slash_eq_false hslash
  case directories =>
    intro title htitle hmem
    rw [hpiece _ (List.dropLast_subset _ htitle), List.mem_singleton] at hmem
    exact hup (hmem ▸ htitle)
  case file =>
    intro title htitle
    rw [hpiece _ (List.mem_of_getLast? htitle)]
    exact List.not_mem_nil

theorem up_mem_fileNames_iff {l : Lineage} (hl : l ≠ []) :
    ".." ∈ fileNames l ↔ (∃ title ∈ l.dropLast, ".." ∈ Text.segments '/' title) ∨
      ∃ title ∈ l.getLast?, ".." ∈ (Text.segments '/' title).dropLast := by
  rcases List.eq_nil_or_concat l with rfl | ⟨l, title, rfl⟩
  · exact absurd rfl hl
  · rw [List.concat_eq_append, fileNames_concat, List.mem_append, List.mem_flatMap,
      up_mem_components_append_ending, List.dropLast_concat, List.getLast?_concat]
    simp only [up_mem_components_iff, Option.mem_some_iff, exists_eq_left']

/-- **Safe paths** are those of safe titles. -/
theorem isSafe_documentPath_iff (area : Section) (l : Lineage) :
    (documentPath area l).isSafe = true ↔ SafeTitles l := by
  have hdirectory : ".." ≠ area.directory := by cases area <;> decide
  by_cases hl : l = []
  · subst hl
    have hsafe : (documentPath area []).isSafe = true := by cases area <;> decide
    exact ⟨fun _ => ⟨rfl, nofun, nofun⟩, fun _ => hsafe⟩
  · unfold UnixPath.isSafe
    rw [Bool.and_eq_true, Bool.not_eq_true', Bool.not_eq_true', isAbsolute_documentPath,
      ← Bool.not_eq_true (List.contains _ _), List.contains_iff_mem]
    constructor
    · rintro ⟨hrelative, hup⟩
      rw [components_documentPath area hl hrelative, List.mem_cons, up_mem_fileNames_iff hl] at hup
      refine ⟨hrelative, fun title htitle hmem => ?_, fun title htitle hmem => ?_⟩
      · exact hup (Or.inr (Or.inl ⟨title, htitle, hmem⟩))
      · exact hup (Or.inr (Or.inr ⟨title, htitle, hmem⟩))
    · rintro ⟨hrelative, hdirectories, hfile⟩
      rw [components_documentPath area hl hrelative, List.mem_cons, up_mem_fileNames_iff hl]
      refine ⟨hrelative, ?_⟩
      rintro (heq | ⟨title, htitle, hmem⟩ | ⟨title, htitle, hmem⟩)
      · exact hdirectory heq
      · exact hdirectories title htitle hmem
      · exact hfile title htitle hmem

/-- The index of a lineage is safe if all its titles are names of directories. -/
theorem safeTitles_index_iff {l : Lineage} :
    SafeTitles (l ++ ["index"]) ↔
      l.any (Text.startsWith "/") = false ∧ ∀ title ∈ l, ".." ∉ Text.segments '/' title := by
  have hrelative : (l ++ ["index"]).any (Text.startsWith "/") = l.any (Text.startsWith "/") := by
    rw [List.any_append, show ["index"].any (Text.startsWith "/") = false by decide, Bool.or_false]
  constructor
  · intro h
    refine ⟨hrelative ▸ h.relative, fun title htitle => h.directories title ?_⟩
    rwa [List.dropLast_concat]
  · rintro ⟨h, hdirectories⟩
    refine ⟨hrelative.trans h, fun title htitle => hdirectories title ?_, fun title htitle => ?_⟩
    · rwa [List.dropLast_concat] at htitle
    · rw [List.getLast?_concat] at htitle
      obtain rfl := Option.some.inj htitle
      decide

theorem slash_notMem_of_mem_canonicalLineage {id title : String} (h : title ∈ canonicalLineage id) :
    '/' ∉ title.toList := by
  unfold canonicalLineage at h
  split at h
  all_goals
    obtain ⟨piece, hpiece, rfl⟩ := List.mem_map.1 h
    rw [String.toList_ofList]
    exact notMem_of_mem_segments hpiece

theorem canonicalLineage_ne_nil (id : String) : canonicalLineage id ≠ [] := by
  unfold canonicalLineage Text.segments
  split
  all_goals
    rw [Ne, List.map_eq_nil_iff]
    exact segments_ne_nil _ _

/-- The titles that a canonical identifier gives have no `/`, and are safe without `..` before the
last. -/
theorem safeTitles_canonicalLineage_iff {id : String} :
    SafeTitles (canonicalLineage id) ↔ ".." ∉ (canonicalLineage id).dropLast := by
  refine ⟨fun h hup => h.directories ".." hup ?_, fun hup => ?_⟩
  · have hslash := slash_notMem_of_mem_canonicalLineage (List.dropLast_subset _ hup)
    rw [Text.segments_of_notMem hslash]
    exact List.mem_singleton_self _
  · exact .of_slash_notMem (fun _ => slash_notMem_of_mem_canonicalLineage) hup

end TaxonomyPress
