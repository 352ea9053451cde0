import TaxonomyPress.Document.Layout

/-!
# Cutting text and joining the pieces

* `Text.join_segments` : the pieces of a text, joined again, are the text;
* `Text.cutAtFirst_append` : a text is cut at the separator it was joined with, if its front has none;
* `join_canonicalLineage_iff` : the path behind the prefix of a canonical identifier is read back unless
  the prefix has a colon of its own, which goes into the path (`join_canonicalLineage_of_colon`);
* `documentUrl_canonicalLineage` : so an address read off a canonical identifier is that of its titles.
-/

namespace TaxonomyPress

theorem cutAtFirst_append {α : Type} [DecidableEq α] {c : α} {front : List α} (rest : List α)
    (h : c ∉ front) : cutAtFirst c (front ++ c :: rest) = some (front, rest) := by
  induction front with
  | nil => simp [cutAtFirst]
  | cons d front ih =>
    have hd : d ≠ c := fun hd => h (hd ▸ List.mem_cons_self)
    have hfront : c ∉ front := fun hc => h (List.mem_cons_of_mem d hc)
    rw [List.cons_append, cutAtFirst, if_neg hd, ih hfront]
    rfl

namespace Text

theorem cutAtFirst_append {c : Char} {front separator : String} (rest : String)
    (hseparator : separator.toList = [c]) (hfront : c ∉ front.toList) :
    cutAtFirst c (front ++ separator ++ rest) = some (front, rest) := by
  have hlist : (front ++ separator ++ rest).toList = front.toList ++ c :: rest.toList := by
    simp [String.toList_append, hseparator]
  unfold cutAtFirst
  rw [hlist, TaxonomyPress.cutAtFirst_append rest.toList hfront]
  simp

theorem join_cons {separator piece : String} {pieces : List String} (h : pieces ≠ []) :
    join separator (piece :: pieces) = piece ++ separator ++ join separator pieces := by
  cases pieces with
  | nil => exact absurd rfl h
  | cons next pieces => rfl

theorem join_concat {separator : String} {pieces : List String} (h : pieces ≠ []) (piece : String) :
    join separator (pieces ++ [piece]) = join separator pieces ++ separator ++ piece := by
  induction pieces with
  | nil => exact absurd rfl h
  | cons first pieces ih =>
    by_cases hrest : pieces = []
    · rw [hrest]
      rfl
    · rw [List.cons_append, join_cons (by simp), join_cons hrest, ih hrest]
      simp only [String.append_assoc]

theorem toList_join_segments {c : Char} {separator : String} (h : separator.toList = [c])
    (cs : List Char) :
    (join separator ((TaxonomyPress.segments c cs).map String.ofList)).toList = cs := by
  induction cs with
  | nil => rfl
  | cons d cs ih =>
    rw [TaxonomyPress.segments]
    split
    · rename_i hd
      subst hd
      have hpieces : (TaxonomyPress.segments d cs).map String.ofList ≠ [] := by
        simp [segments_ne_nil]
      rw [List.map_cons, join_cons hpieces]
      simp [h, ih]
    · split
      · rename_i hnil
        exact absurd hnil (segments_ne_nil c cs)
      · rename_i piece pieces hcs
        rw [hcs] at ih
        rcases pieces with _ | ⟨next, pieces⟩
        · simpa [join] using ih
        · simpa [join] using ih

theorem join_segments {c : Char} {separator : String} (h : separator.toList = [c]) (s : String) :
    join separator (segments c s) = s := by
  apply String.toList_inj.1
  exact toList_join_segments h s.toList

end Text

/-- A prefix with a colon of its own would be cut too early. -/
theorem canonicalLineage_append {front : String} (path : String) (h : ':' ∉ front.toList) :
    canonicalLineage (front ++ ":" ++ path) = Text.segments '/' path := by
  unfold canonicalLineage
  rw [Text.cutAtFirst_append path rfl h]

theorem join_canonicalLineage {front : String} (path : String) (h : ':' ∉ front.toList) :
    Text.join "/" (canonicalLineage (front ++ ":" ++ path)) = path := by
  rw [canonicalLineage_append path h, Text.join_segments rfl]

/-- What stands behind the first colon of the prefix is read as the beginning of the path. -/
theorem join_canonicalLineage_of_colon {outer : String} (inner path : String)
    (h : ':' ∉ outer.toList) :
    Text.join "/" (canonicalLineage (outer ++ ":" ++ inner ++ ":" ++ path)) = inner ++ ":" ++ path := by
  have hassoc : outer ++ ":" ++ inner ++ ":" ++ path = outer ++ ":" ++ (inner ++ ":" ++ path) := by
    simp only [String.append_assoc]
  rw [hassoc, join_canonicalLineage _ h]

theorem join_canonicalLineage_iff {front path : String} :
    Text.join "/" (canonicalLineage (front ++ ":" ++ path)) = path ↔ ':' ∉ front.toList := by
  refine ⟨fun h hcolon => ?_, join_canonicalLineage path⟩
  obtain ⟨before, after, hfront, hbefore⟩ := List.eq_append_cons_of_mem hcolon
  obtain rfl : front = String.ofList before ++ ":" ++ String.ofList after :=
    String.toList_inj.1 (by simp [hfront])
  rw [join_canonicalLineage_of_colon _ path (by simpa using hbefore)] at h
  -- what is read is longer than the path
  have hlength := congrArg String.length h
  simp only [String.length_append] at hlength
  have hcolon : ":".length = 1 := by decide
  omega

theorem documentUrl_canonicalLineage {front : String} (baseUrl : String) (area : Section)
    (titles : Lineage) (h : ':' ∉ front.toList) :
    documentUrl baseUrl area (canonicalLineage (front ++ ":" ++ Text.join "/" titles)) =
      documentUrl baseUrl area titles := by
  unfold documentUrl
  rw [join_canonicalLineage _ h]

end TaxonomyPress
