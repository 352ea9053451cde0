/-!
# Text: the code point order, cutting and joining

* `lexicographic` : the order of lists under an order of their members; `compareText` : strings by
  code point, which is also the order of their UTF-8 bytes;
* `splitAfterLast` : cuts behind the last character of a class (`append_of_splitAfterLast`);
* `cutAtFirst` : cuts at the first occurrence of a character, which is dropped
  (`append_of_cutAtFirst`);
* `segments` : the pieces between the occurrences of a separator (`segments_ne_nil`);
* `dropPrefix`, `dropSuffix`, `trimEnd` : text without a given beginning or end;
* `beginnings` : all beginnings of a list.
-/

namespace TaxonomyPress

/-! ## Order -/

/-- The first difference decides; a proper beginning comes before its continuations. -/
def lexicographic {α : Type} (order : α → α → Ordering) : List α → List α → Ordering
  | [], [] => .eq
  | [], _ :: _ => .lt
  | _ :: _, [] => .gt
  | x :: xs, y :: ys =>
    match order x y with
    | .eq => lexicographic order xs ys
    | decided => decided

/-- Natural numbers by size. -/
def compareNat (m n : Nat) : Ordering :=
  if m < n then .lt else if m = n then .eq else .gt

/-- Strings by code point. -/
def compareText (s t : String) : Ordering :=
  lexicographic (fun c d => compareNat c.toNat d.toNat) s.toList t.toList

theorem compareNat_eq_iff {m n : Nat} : compareNat m n = .eq ↔ m = n := by
  unfold compareNat
  split
  · simp; omega
  · split <;> simp_all

theorem lexicographic_eq_iff {α : Type} {order : α → α → Ordering}
    (h : ∀ x y, order x y = .eq ↔ x = y) (xs ys : List α) :
    lexicographic order xs ys = .eq ↔ xs = ys := by
  induction xs generalizing ys with
  | nil => cases ys <;> simp [lexicographic]
  | cons x xs ih =>
    cases ys with
    | nil => simp [lexicographic]
    | cons y ys =>
      simp only [lexicographic, List.cons.injEq, ← h x y]
      cases hxy : order x y <;> simp [ih]

theorem compareText_eq_iff {s t : String} : compareText s t = .eq ↔ s = t := by
  unfold compareText
  rw [lexicographic_eq_iff, String.toList_inj]
  intro c d
  rw [compareNat_eq_iff]
  exact ⟨fun h => Char.toNat_inj.1 h, fun h => h ▸ rfl⟩

/-- Optional text: absence comes first. -/
def compareOptionalText : Option String → Option String → Ordering
  | none, none => .eq
  | none, some _ => .lt
  | some _, none => .gt
  | some s, some t => compareText s t

/-- `xs` from small to large; members that compare equal keep their order. -/
def sortWith {α : Type} (order : α → α → Ordering) (xs : List α) : List α :=
  xs.mergeSort fun x y => (order x y).isLE

/-! ## Cutting lists -/

/-- Cuts `cs` behind the last member that satisfies `p`. -/
def splitAfterLast {α : Type} (p : α → Bool) : List α → Option (List α × List α)
  | [] => none
  | c :: cs =>
    match splitAfterLast p cs with
    | some (before, after) => some (c :: before, after)
    | none => if p c then some ([c], cs) else none

theorem append_of_splitAfterLast {α : Type} {p : α → Bool} {cs before after : List α}
    (h : splitAfterLast p cs = some (before, after)) : before ++ after = cs := by
  induction cs generalizing before after with
  | nil => simp [splitAfterLast] at h
  | cons c cs ih =>
    simp only [splitAfterLast] at h
    split at h
    · rename_i b a hcs
      simp only [Option.some.injEq, Prod.mk.injEq] at h
      obtain ⟨rfl, rfl⟩ := h
      simp [ih hcs]
    · split at h <;> simp_all
      obtain ⟨rfl, rfl⟩ := h
      simp

/-- Cuts `cs` at its first `c`, which belongs to neither part. -/
def cutAtFirst {α : Type} [DecidableEq α] (c : α) : List α → Option (List α × List α)
  | [] => none
  | d :: ds =>
    if d = c then some ([], ds)
    else (cutAtFirst c ds).map fun (before, after) => (d :: before, after)

theorem append_of_cutAtFirst {α : Type} [DecidableEq α] {c : α} {cs before after : List α}
    (h : cutAtFirst c cs = some (before, after)) : before ++ c :: after = cs := by
  induction cs generalizing before after with
  | nil => simp [cutAtFirst] at h
  | cons d ds ih =>
    simp only [cutAtFirst] at h
    split at h
    · simp_all
    · simp only [Option.map_eq_some_iff, Prod.exists, Prod.mk.injEq] at h
      obtain ⟨b, a, hds, rfl, rfl⟩ := h
      simp [ih hds]

/-- The pieces between the occurrences of `separator`, empty ones included. -/
def segments {α : Type} [DecidableEq α] (separator : α) : List α → List (List α)
  | [] => [[]]
  | c :: cs =>
    if c = separator then [] :: segments separator cs
    else
      match segments separator cs with
      | [] => [[c]]
      | piece :: pieces => (c :: piece) :: pieces

theorem segments_ne_nil {α : Type} [DecidableEq α] (separator : α) (cs : List α) :
    segments separator cs ≠ [] := by
  cases cs with
  | nil => simp [segments]
  | cons c cs =>
    simp only [segments]
    split
    · simp
    · split <;> simp

/-- What follows `front` in `cs`, if `cs` begins with it. -/
def dropPrefix {α : Type} [DecidableEq α] : List α → List α → Option (List α)
  | [], cs => some cs
  | _ :: _, [] => none
  | p :: ps, c :: cs => if p = c then dropPrefix ps cs else none

theorem dropPrefix_eq_some_iff {α : Type} [DecidableEq α] {front cs rest : List α} :
    dropPrefix front cs = some rest ↔ front ++ rest = cs := by
  induction front generalizing cs with
  | nil => simp [dropPrefix, eq_comm]
  | cons p ps ih =>
    cases cs with
    | nil => simp [dropPrefix]
    | cons c cs => by_cases h : p = c <;> simp [dropPrefix, h, ih]

/-- The beginnings of `xs`, from the empty one to `xs` itself. -/
def beginnings {α : Type} (xs : List α) : List (List α) :=
  (List.range (xs.length + 1)).map fun n => xs.take n

/-- `cs` without its longest end of members that satisfy `p`. -/
def trimEnd {α : Type} (p : α → Bool) (cs : List α) : List α :=
  (cs.reverse.dropWhile p).reverse

namespace Text

/-! ## Cutting strings -/

/-- What follows `front` in `s`, if `s` begins with it. -/
def dropPrefix (front s : String) : Option String :=
  (TaxonomyPress.dropPrefix front.toList s.toList).map String.ofList

theorem dropPrefix_eq_some_iff {front s rest : String} :
    dropPrefix front s = some rest ↔ front ++ rest = s := by
  simp only [dropPrefix, Option.map_eq_some_iff, TaxonomyPress.dropPrefix_eq_some_iff]
  constructor
  · rintro ⟨cs, hcs, rfl⟩
    apply String.toList_inj.1
    simp [hcs]
  · rintro rfl
    exact ⟨rest.toList, by simp, by simp⟩

/-- What comes before `back` in `s`, if `s` ends with it. -/
def dropSuffix (back s : String) : Option String :=
  (TaxonomyPress.dropPrefix back.toList.reverse s.toList.reverse).map
    fun cs => String.ofList cs.reverse

theorem dropSuffix_eq_some_iff {back s rest : String} :
    dropSuffix back s = some rest ↔ rest ++ back = s := by
  simp only [dropSuffix, Option.map_eq_some_iff, TaxonomyPress.dropPrefix_eq_some_iff]
  constructor
  · rintro ⟨cs, hcs, rfl⟩
    apply String.toList_inj.1
    simpa using congrArg List.reverse hcs
  · rintro rfl
    exact ⟨rest.toList.reverse, by simp, by simp⟩

/-- Whether `s` begins with `front`. -/
def startsWith (front s : String) : Bool := (dropPrefix front s).isSome

theorem startsWith_append (front rest : String) : startsWith front (front ++ rest) := by
  have h : dropPrefix front (front ++ rest) = some rest := dropPrefix_eq_some_iff.2 rfl
  rw [startsWith, h]
  rfl

/-- Cuts `s` at its first `c`, which belongs to neither part. -/
def cutAtFirst (c : Char) (s : String) : Option (String × String) :=
  (TaxonomyPress.cutAtFirst c s.toList).map fun (before, after) =>
    (String.ofList before, String.ofList after)

/-- The pieces of `s` between the occurrences of `separator`. -/
def segments (separator : Char) (s : String) : List String :=
  (TaxonomyPress.segments separator s.toList).map String.ofList

/-- `s` without its longest end of characters that satisfy `p`. -/
def trimEnd (p : Char → Bool) (s : String) : String :=
  String.ofList (TaxonomyPress.trimEnd p s.toList)

/-- The strings of `pieces` with `separator` between them. -/
def join (separator : String) : List String → String
  | [] => ""
  | [piece] => piece
  | piece :: pieces => piece ++ separator ++ join separator pieces

end Text

end TaxonomyPress
