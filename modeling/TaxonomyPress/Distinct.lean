/-!
# First occurrences

* `distinctBy key xs` : the members of `xs` whose key no earlier member has, in their order;
* `mem_of_mem_distinctBy`, `exists_mem_distinctBy` : nothing new, and every key stays;
* `distinct` : the case where a member is its own key; one more member at the end is new or lost
  (`distinct_concat`), and members can be left out before or afterwards (`filter_distinct`).
-/

namespace TaxonomyPress

variable {α κ : Type} [DecidableEq κ]

/-- The members of `xs` with a key that is neither in `seen` nor the key of an earlier member. -/
def distinctFrom (key : α → κ) (seen : List κ) : List α → List α
  | [] => []
  | x :: xs =>
    if key x ∈ seen then distinctFrom key seen xs
    else x :: distinctFrom key (key x :: seen) xs

/-- The first member of `xs` for each key, in the order of `xs`. -/
def distinctBy (key : α → κ) (xs : List α) : List α := distinctFrom key [] xs

/-- The members of `xs`, each at its first place only. -/
def distinct (xs : List κ) : List κ := distinctBy id xs

theorem mem_of_mem_distinctFrom {key : α → κ} {seen : List κ} {xs : List α} {x : α}
    (h : x ∈ distinctFrom key seen xs) : x ∈ xs := by
  induction xs generalizing seen with
  | nil => simp [distinctFrom] at h
  | cons y ys ih =>
    simp only [distinctFrom] at h
    split at h
    · exact List.mem_cons_of_mem y (ih h)
    · rcases List.mem_cons.1 h with rfl | h
      · exact List.mem_cons_self
      · exact List.mem_cons_of_mem y (ih h)

theorem mem_of_mem_distinctBy {key : α → κ} {xs : List α} {x : α} (h : x ∈ distinctBy key xs) :
    x ∈ xs := mem_of_mem_distinctFrom h

theorem key_notMem_of_mem_distinctFrom {key : α → κ} {seen : List κ} {xs : List α} {x : α}
    (h : x ∈ distinctFrom key seen xs) : key x ∉ seen := by
  induction xs generalizing seen with
  | nil => simp [distinctFrom] at h
  | cons y ys ih =>
    simp only [distinctFrom] at h
    split at h
    · exact ih h
    · rename_i hy
      rcases List.mem_cons.1 h with rfl | h
      · exact hy
      · exact fun hx => ih h (List.mem_cons_of_mem _ hx)

theorem nodup_map_distinctFrom (key : α → κ) (seen : List κ) (xs : List α) :
    ((distinctFrom key seen xs).map key).Nodup := by
  induction xs generalizing seen with
  | nil => simp [distinctFrom]
  | cons y ys ih =>
    simp only [distinctFrom]
    split
    · exact ih seen
    · rw [List.map_cons, List.nodup_cons]
      refine ⟨fun hy => ?_, ih _⟩
      obtain ⟨x, hx, hkey⟩ := List.mem_map.1 hy
      exact key_notMem_of_mem_distinctFrom hx (by simp [hkey])

theorem nodup_map_distinctBy (key : α → κ) (xs : List α) :
    ((distinctBy key xs).map key).Nodup := nodup_map_distinctFrom key [] xs

theorem exists_mem_distinctFrom {key : α → κ} {seen : List κ} {xs : List α} {x : α}
    (hx : x ∈ xs) (hs : key x ∉ seen) : ∃ y ∈ distinctFrom key seen xs, key y = key x := by
  induction xs generalizing seen with
  | nil => simp at hx
  | cons y ys ih =>
    simp only [distinctFrom]
    by_cases hy : key y ∈ seen
    · rw [if_pos hy]
      rcases List.mem_cons.1 hx with rfl | hx
      · exact absurd hy hs
      · exact ih hx hs
    · rw [if_neg hy]
      by_cases hxy : key x = key y
      · exact ⟨y, List.mem_cons_self, hxy.symm⟩
      · rcases List.mem_cons.1 hx with rfl | hx
        · exact absurd rfl hxy
        · obtain ⟨z, hz, hkey⟩ : ∃ z ∈ distinctFrom key (key y :: seen) ys, key z = key x :=
            ih hx (by simp [hxy, hs])
          exact ⟨z, List.mem_cons_of_mem y hz, hkey⟩

theorem exists_mem_distinctBy {key : α → κ} {xs : List α} {x : α} (hx : x ∈ xs) :
    ∃ y ∈ distinctBy key xs, key y = key x := exists_mem_distinctFrom hx (by simp)

theorem mem_distinct {x : κ} {xs : List κ} : x ∈ distinct xs ↔ x ∈ xs := by
  constructor
  · exact mem_of_mem_distinctBy
  · intro hx
    obtain ⟨y, hy, hkey⟩ : ∃ y ∈ distinctBy id xs, id y = id x := exists_mem_distinctBy hx
    exact (show y = x from hkey) ▸ hy

theorem nodup_distinct (xs : List κ) : (distinct xs).Nodup := by
  have := nodup_map_distinctBy id xs
  rwa [List.map_id] at this

theorem head?_distinct (xs : List κ) : (distinct xs).head? = xs.head? := by
  cases xs with
  | nil => rfl
  | cons x xs => simp [distinct, distinctBy, distinctFrom]

/-- What stands once in a list stays where it is. -/
theorem sublist_distinctFrom {seen xs ys : List κ} (h : xs.Sublist ys) (hseen : ∀ x ∈ xs, x ∉ seen)
    (honce : ∀ x ∈ xs, ys.count x ≤ 1) : xs.Sublist (distinctFrom id seen ys) := by
  induction h generalizing seen with
  | slnil => exact List.nil_sublist _
  | @cons xs ys y h ih =>
    have honce' : ∀ x ∈ xs, ys.count x ≤ 1 := fun x hx =>
      Nat.le_trans (List.count_le_count_cons) (honce x hx)
    simp only [distinctFrom, id]
    by_cases hy : y ∈ seen
    · rw [if_pos hy]
      exact ih hseen honce'
    · rw [if_neg hy]
      refine (ih (fun x hx hmem => ?_) honce').cons y
      rcases List.mem_cons.1 hmem with rfl | hmem
      · have hcount : 0 < ys.count x := List.count_pos_iff.2 (h.subset hx)
        have honce := honce x hx
        rw [List.count_cons_self] at honce
        omega
      · exact hseen x hx hmem
  | @cons_cons xs ys y h ih =>
    have hy : y ∉ seen := hseen y List.mem_cons_self
    have hys : y ∉ ys := by
      have honce := honce y List.mem_cons_self
      rw [List.count_cons_self] at honce
      exact List.count_eq_zero.1 (by omega)
    simp only [distinctFrom, id, if_neg hy]
    refine (ih (fun x hx hmem => ?_) fun x hx => ?_).cons_cons y
    · rcases List.mem_cons.1 hmem with rfl | hmem
      · exact hys (h.subset hx)
      · exact hseen x (List.mem_cons_of_mem y hx) hmem
    · exact Nat.le_trans List.count_le_count_cons (honce x (List.mem_cons_of_mem y hx))

theorem distinctFrom_concat {key : α → κ} {seen : List κ} {xs : List α} (x : α) :
    distinctFrom key seen (xs ++ [x]) = distinctFrom key seen xs ++
      if key x ∈ seen ∨ key x ∈ xs.map key then [] else [x] := by
  induction xs generalizing seen with
  | nil => by_cases hx : key x ∈ seen <;> simp [distinctFrom, hx]
  | cons y ys ih =>
    simp only [List.cons_append, distinctFrom]
    by_cases hy : key y ∈ seen
    · have hseen : key x = key y → key x ∈ seen := fun h => h ▸ hy
      have hiff : (key x ∈ seen ∨ key x ∈ (y :: ys).map key) ↔
          (key x ∈ seen ∨ key x ∈ ys.map key) := by
        rw [List.map_cons, List.mem_cons, ← or_assoc, or_iff_left_of_imp hseen]
      simp only [if_pos hy, ih, hiff]
    · simp only [if_neg hy, ih, List.cons_append, List.mem_cons, List.map_cons, or_left_comm,
        or_assoc]

theorem distinct_concat (xs : List κ) (x : κ) :
    distinct (xs ++ [x]) = if x ∈ xs then distinct xs else distinct xs ++ [x] := by
  rw [distinct, distinctBy, distinctFrom_concat]
  by_cases hx : x ∈ xs <;> simp [distinct, distinctBy, hx]

/-- Only the seen keys that members have count. -/
theorem distinctFrom_congr {key : α → κ} {seen seen' : List κ} {xs : List α}
    (h : ∀ x ∈ xs, key x ∈ seen ↔ key x ∈ seen') :
    distinctFrom key seen xs = distinctFrom key seen' xs := by
  induction xs generalizing seen seen' with
  | nil => rfl
  | cons x xs ih =>
    have hx := h x List.mem_cons_self
    have hxs : ∀ y ∈ xs, key y ∈ seen ↔ key y ∈ seen' := fun y hy => h y (List.mem_cons_of_mem x hy)
    have hcons : ∀ y ∈ xs, key y ∈ key x :: seen ↔ key y ∈ key x :: seen' := fun y hy => by
      simp only [List.mem_cons, hxs y hy]
    simp only [distinctFrom, hx]
    rw [ih hxs, ih hcons]

theorem filter_distinctFrom (p : κ → Bool) (seen xs : List κ) :
    (distinctFrom id seen xs).filter p = distinctFrom id seen (xs.filter p) := by
  induction xs generalizing seen with
  | nil => rfl
  | cons x xs ih =>
    by_cases hx : x ∈ seen
    · rw [distinctFrom, if_pos (show id x ∈ seen from hx), ih]
      cases hp : p x with
      | false => rw [List.filter_cons_of_neg (by simp [hp])]
      | true =>
        rw [List.filter_cons_of_pos hp, distinctFrom, if_pos (show id x ∈ seen from hx)]
    · rw [distinctFrom, if_neg (show id x ∉ seen from hx)]
      cases hp : p x with
      | false =>
        rw [List.filter_cons_of_neg (by simp [hp]), List.filter_cons_of_neg (by simp [hp]), ih]
        -- what is left out no longer counts as seen
        refine distinctFrom_congr fun y hy => ?_
        have hne : y ≠ x := by
          rintro rfl
          rw [(List.mem_filter.1 hy).2] at hp
          cases hp
        simp [hne]
      | true =>
        rw [List.filter_cons_of_pos hp, List.filter_cons_of_pos hp, distinctFrom,
          if_neg (show id x ∉ seen from hx), ih]

/-- What is left out of a list may be left out before or behind its repetitions. -/
theorem filter_distinct (p : κ → Bool) (xs : List κ) :
    (distinct xs).filter p = distinct (xs.filter p) := filter_distinctFrom p [] xs

theorem distinctBy_of_nodup {key : α → κ} {xs : List α} (h : (xs.map key).Nodup) :
    distinctBy key xs = xs := by
  suffices hfrom : ∀ seen : List κ, (∀ x ∈ xs, key x ∉ seen) → distinctFrom key seen xs = xs from
    hfrom [] fun _ _ => List.not_mem_nil
  induction xs with
  | nil => exact fun _ _ => rfl
  | cons x xs ih =>
    intro seen hseen
    obtain ⟨hx, hxs⟩ := List.nodup_cons.1 h
    rw [distinctFrom, if_neg (hseen x List.mem_cons_self), ih hxs]
    intro y hy hmem
    rcases List.mem_cons.1 hmem with heq | hmem
    · exact hx (heq ▸ List.mem_map_of_mem hy)
    · exact hseen y (List.mem_cons_of_mem x hy) hmem

theorem distinct_of_nodup {xs : List κ} (h : xs.Nodup) : distinct xs = xs :=
  distinctBy_of_nodup (by rwa [List.map_id])

end TaxonomyPress
