import Mathlib.Algebra.GroupWithZero.Nat
import Mathlib.Data.List.Chain
import TaxonomyPress.Proofs.PathNames

/-!
# Addresses and paths write the same titles

An address joins titles with `/`, a path pushes them one after the other. A push that replaces the path
or puts no separator makes the path shorter than the joined text, so the two agree just where no push
does so.

* `UnixPath.Follows` : a component that goes behind a text and a `/`;
* `UnixPath.text_push`, `UnixPath.length_text_push_lt` : what one push writes;
* `UnixPath.text_foldl_push_iff` : pushes write the joined text just when each component follows the one
  before;
* `documentUrl_eq_iff` : so the address of a document is its path behind the base just when its titles
  follow each other;
* `urls_write_paths` : titles that are parts of a path (`UnixPath.IsPart`) do, and the index of their
  lineage lies behind the address of its document.
-/

namespace TaxonomyPress

namespace UnixPath

/-! ## One component -/

/-- A `/` separates `text` from what is pushed onto it. -/
structure EndsOpen (text : String) : Prop where
  ne_empty : text ≠ ""
  noSlash : (Text.dropSuffix "/" text).isSome = false

/-- Pushed onto `text`, the component stands behind it and a `/`. -/
structure Follows (text component : String) : Prop where
  endsOpen : EndsOpen text
  relative : Text.startsWith "/" component = false

/-- A title that follows others and lets others follow. -/
structure IsPart (title : String) : Prop where
  endsOpen : EndsOpen title
  relative : Text.startsWith "/" title = false

instance (text : String) : Decidable (EndsOpen text) :=
  decidable_of_iff (text ≠ "" ∧ (Text.dropSuffix "/" text).isSome = false)
    ⟨fun ⟨h₁, h₂⟩ => ⟨h₁, h₂⟩, fun ⟨h₁, h₂⟩ => ⟨h₁, h₂⟩⟩

instance (title : String) : Decidable (IsPart title) :=
  decidable_of_iff (EndsOpen title ∧ Text.startsWith "/" title = false)
    ⟨fun ⟨h₁, h₂⟩ => ⟨h₁, h₂⟩, fun ⟨h₁, h₂⟩ => ⟨h₁, h₂⟩⟩

variable {path : UnixPath} {text component : String} {titles : List String}

theorem text_push (h : Follows path.text component) :
    (path.push component).text = path.text ++ "/" ++ component := by
  unfold push
  rw [if_neg (by rw [h.relative]; decide), if_neg]
  rintro (hempty | hslash)
  · exact h.endsOpen.ne_empty hempty
  · rw [h.endsOpen.noSlash] at hslash
    cases hslash

/-- Any other push leaves out what stood before, or the separator. -/
theorem length_text_push_lt (h : ¬ Follows path.text component) :
    (path.push component).text.length < path.text.length + 1 + component.length := by
  unfold push
  split
  · show component.length < _
    omega
  · rename_i hrelative
    split
    · show (path.text ++ component).length < _
      rw [String.length_append]
      omega
    · rename_i hopen
      rw [not_or, Bool.not_eq_true] at hopen
      rw [Bool.not_eq_true] at hrelative
      exact absurd ⟨⟨hopen.1, hopen.2⟩, hrelative⟩ h

theorem length_text_push_le (path : UnixPath) (component : String) :
    (path.push component).text.length ≤ path.text.length + 1 + component.length := by
  by_cases h : Follows path.text component
  · rw [text_push h, String.length_append, String.length_append]
    exact Nat.le_refl _
  · exact Nat.le_of_lt (length_text_push_lt h)

theorem endsOpen_iff : EndsOpen text ↔ ∃ c ∈ text.toList.getLast?, c ≠ '/' := by
  rcases List.eq_nil_or_concat text.toList with hnil | ⟨front, c, hconcat⟩
  · have hempty : text = "" := String.toList_inj.1 hnil
    exact iff_of_false (fun h => h.ne_empty hempty) (by simp [hnil])
  · rw [List.concat_eq_append] at hconcat
    have hne : text ≠ "" := fun hempty => by simp [hempty] at hconcat
    have hslash : (Text.dropSuffix "/" text).isSome ↔ c = '/' := by
      rw [endsWith_slash_iff, hconcat]
      simp
    constructor
    · rintro ⟨-, hend⟩
      refine ⟨c, by simp [hconcat], fun hc => ?_⟩
      rw [hslash.2 hc] at hend
      cases hend
    · rintro ⟨d, hd, hdc⟩
      obtain rfl : c = d := by simpa [hconcat] using hd
      exact ⟨hne, Bool.eq_false_iff.2 fun h => hdc (hslash.1 h)⟩

/-- A text ends as its last component does. -/
theorem endsOpen_append_slash_iff (front title : String) :
    EndsOpen (front ++ "/" ++ title) ↔ EndsOpen title := by
  rw [endsOpen_iff, endsOpen_iff, String.toList_append, List.getLast?_append, String.toList_append]
  cases title.toList.getLast? with
  | none => simp
  | some c => simp

theorem follows_append_slash_iff (front title component : String) :
    Follows (front ++ "/" ++ title) component ↔ Follows title component := by
  constructor
  · rintro ⟨hend, hrelative⟩
    exact ⟨(endsOpen_append_slash_iff front title).1 hend, hrelative⟩
  · rintro ⟨hend, hrelative⟩
    exact ⟨(endsOpen_append_slash_iff front title).2 hend, hrelative⟩

theorem isChain_append_slash_iff (front title : String) (titles : List String) :
    ((front ++ "/" ++ title) :: titles).IsChain Follows ↔ (title :: titles).IsChain Follows := by
  cases titles with
  | nil => exact iff_of_true (.singleton _) (.singleton _)
  | cons next titles =>
    rw [List.isChain_cons_cons, List.isChain_cons_cons, follows_append_slash_iff]

/-! ## All components -/

theorem join_append_slash (front title : String) (titles : List String) :
    Text.join "/" ((front ++ "/" ++ title) :: titles) = Text.join "/" (front :: title :: titles) := by
  cases titles with
  | nil => rfl
  | cons next titles =>
    rw [Text.join_cons (List.cons_ne_nil _ _), Text.join_cons (List.cons_ne_nil _ _),
      Text.join_cons (List.cons_ne_nil _ _)]
    simp only [String.append_assoc]

theorem length_join_cons (text : String) (titles : List String) :
    (Text.join "/" (text :: titles)).length =
      text.length + (titles.map fun title => 1 + title.length).sum := by
  induction titles generalizing text with
  | nil => simp [Text.join]
  | cons title titles ih =>
    rw [Text.join_cons (List.cons_ne_nil _ _), String.length_append, String.length_append, ih,
      List.map_cons, List.sum_cons]
    have hslash : "/".length = 1 := by decide
    omega

theorem length_text_foldl_push_le (path : UnixPath) (titles : List String) :
    (titles.foldl push path).text.length ≤ (Text.join "/" (path.text :: titles)).length := by
  induction titles generalizing path with
  | nil => exact Nat.le_refl _
  | cons title titles ih =>
    have hpush := length_text_push_le path title
    have hrest := ih (path.push title)
    rw [length_join_cons] at hrest ⊢
    rw [List.foldl_cons, List.map_cons, List.sum_cons]
    omega

/-- Pushes write the joined text just when each component follows the one before. -/
theorem text_foldl_push_iff :
    (titles.foldl push path).text = Text.join "/" (path.text :: titles) ↔
      (path.text :: titles).IsChain Follows := by
  induction titles generalizing path with
  | nil => exact iff_of_true rfl (.singleton _)
  | cons title titles ih =>
    rw [List.foldl_cons, List.isChain_cons_cons]
    by_cases h : Follows path.text title
    · rw [← join_append_slash, and_iff_right h, ← isChain_append_slash_iff path.text, ← text_push h]
      exact ih
    · refine iff_of_false (fun heq => ?_) fun hchain => h hchain.1
      have hlt := length_text_push_lt h
      have hle := length_text_foldl_push_le (path.push title) titles
      rw [heq, length_join_cons, length_join_cons, List.map_cons, List.sum_cons] at hle
      omega

theorem isChain_of_isPart (htext : EndsOpen text) (h : ∀ title ∈ titles, IsPart title) :
    (text :: titles).IsChain Follows := by
  induction titles generalizing text with
  | nil => exact .singleton _
  | cons title titles ih =>
    obtain ⟨htitle, hrest⟩ := List.forall_mem_cons.1 h
    exact .cons_cons ⟨htext, htitle.relative⟩ (ih htitle.endsOpen hrest)

end UnixPath

open UnixPath

/-! ## Documents -/

theorem Section.endsOpen_directory (area : Section) : EndsOpen area.directory := by
  cases area <;> decide

/-- What is put behind a title makes no difference to which texts it follows. -/
theorem isChain_concat_ending_iff (text : String) (l : Lineage) (title : String) :
    (text :: (l ++ [title ++ ".jsonld"])).IsChain Follows ↔
      (text :: (l ++ [title])).IsChain Follows := by
  have hlast (before : String) : Follows before (title ++ ".jsonld") ↔ Follows before title := by
    constructor
    · rintro ⟨hend, hrelative⟩
      exact ⟨hend, startsWith_slash_append_ending title ▸ hrelative⟩
    · rintro ⟨hend, hrelative⟩
      exact ⟨hend, (startsWith_slash_append_ending title).trans hrelative⟩
  induction l generalizing text with
  | nil => simp [hlast]
  | cons next l ih =>
    rw [List.cons_append, List.cons_append, List.isChain_cons_cons, List.isChain_cons_cons]
    exact and_congr_right fun _ => ih next

theorem join_concat_append (l : Lineage) (title ending : String) :
    Text.join "/" (l ++ [title ++ ending]) = Text.join "/" (l ++ [title]) ++ ending := by
  by_cases hl : l = []
  · rw [hl]
    rfl
  · rw [Text.join_concat hl, Text.join_concat hl]
    simp only [String.append_assoc]

/-- The address of a document is its path behind the base just when its titles follow each other. -/
theorem documentUrl_eq_iff (baseUrl : String) (area : Section) {l : Lineage} (hl : l ≠ []) :
    documentUrl baseUrl area l ++ ".jsonld" =
        Text.trimEnd (· == '/') baseUrl ++ "/" ++ (documentPath area l).text ↔
      (area.directory :: l).IsChain Follows := by
  rcases List.eq_nil_or_concat l with rfl | ⟨l, title, rfl⟩
  · exact absurd rfl hl
  · rw [List.concat_eq_append]
    have hpath : documentPath area (l ++ [title]) =
        (l ++ [title ++ ".jsonld"]).foldl push ⟨area.directory⟩ := by
      rw [documentPath_concat, List.foldl_append]
      rfl
    have hurl : documentUrl baseUrl area (l ++ [title]) ++ ".jsonld" =
        Text.trimEnd (· == '/') baseUrl ++ "/" ++
          Text.join "/" (area.directory :: (l ++ [title ++ ".jsonld"])) := by
      rw [Text.join_cons (by simp), join_concat_append]
      simp only [documentUrl, String.append_assoc]
    rw [hpath, hurl, String.append_right_inj, ← isChain_concat_ending_iff, ← text_foldl_push_iff]
    exact eq_comm

/-- **Addresses and paths are one encoding.** For titles that are not empty and neither begin nor end
with `/`, the address of a document and `.jsonld` are its path behind the base, and the path of the
index of the lineage, behind the base, is the address of its vocabulary and `/index.jsonld`. -/
theorem urls_write_paths (baseUrl : String) (area : Section) {l : Lineage} (hl : l ≠ [])
    (htitles : ∀ title ∈ l, IsPart title) :
    documentUrl baseUrl area l ++ ".jsonld" =
        Text.trimEnd (· == '/') baseUrl ++ "/" ++ (documentPath area l).text ∧
      Text.trimEnd (· == '/') baseUrl ++ "/" ++ (indexPath l).text =
        documentUrl baseUrl .vocabulary l ++ "/index.jsonld" := by
  refine ⟨(documentUrl_eq_iff baseUrl area hl).2
    (isChain_of_isPart area.endsOpen_directory htitles), ?_⟩
  have hindex : ∀ title ∈ l ++ ["index"], IsPart title := by
    intro title htitle
    rcases List.mem_append.1 htitle with htitle | htitle
    · exact htitles title htitle
    · rw [List.mem_singleton.1 htitle]
      decide
  have hurl : documentUrl baseUrl .vocabulary (l ++ ["index"]) =
      documentUrl baseUrl .vocabulary l ++ "/index" := by
    simp only [documentUrl, Text.join_concat hl, String.append_assoc]
    rfl
  rw [indexPath_eq_documentPath, ← (documentUrl_eq_iff baseUrl .vocabulary (by simp)).2
    (isChain_of_isPart Section.vocabulary.endsOpen_directory hindex), hurl, String.append_assoc]
  rfl

/-- A title may have a `/` inside. The base loses both of its last ones. -/
theorem garden_house_addressed :
    (∀ title ∈ ["Building", "Garden/House"], IsPart title) ∧
      documentUrl "https://example.org/v1//" .context ["Building", "Garden/House"] ++ ".jsonld" =
        "https://example.org/v1/Context/Building/Garden/House.jsonld" ∧
      documentUrl "https://example.org/v1//" .vocabulary ["Building", "Garden/House"] ++
          "/index.jsonld" =
        "https://example.org/v1/Vocabulary/Building/Garden/House/index.jsonld" := by
  have htitles : ∀ title ∈ ["Building", "Garden/House"], IsPart title := by decide
  obtain ⟨hdocument, hindex⟩ :=
    urls_write_paths "https://example.org/v1//" .context (List.cons_ne_nil _ _) htitles
  refine ⟨htitles, hdocument.trans ?_, hindex.symm.trans ?_⟩
  · decide
  · decide

end TaxonomyPress
