import Mathlib.Data.List.Forall2

/-!
# Reading lists one member at a time

A traversal of a list by a function that may fail succeeds if every member does.

* `mapM_eq_ok_iff` : the results stand in the order of the members;
* `mapM_congr` : functions that agree on the members have the same results;
* `mapM_append_eq_ok_iff`, `mapM_reverse_eq_ok_iff` : how they follow joined and reversed lists;
* `exists_mapM_eq_ok` : it succeeds if each member has a result; then it is a map
  (`exists_map_of_mapM_eq_ok`);
* `mapM_eq_some_of_forall₂` : the same for a reading that gives no reason when it fails;
* `exists_mem_of_mapM_eq_error` : it fails for the reason of a member;
* `filterMap_eq_append_cons_iff` : a reading that leaves members out, cut at one of its results;
* `Fails` : a computation gives a reason instead of a result; so does a traversal if it does on some
  member (`fails_mapM_iff`), and a chain if a link does (`fails_bind_iff`);
* `Alike` : two computations fail for the same reason or have related results, and so do chains of such
  (`Alike.bind`) and traversals by such (`Alike.mapM`).
-/

namespace TaxonomyPress

variable {ε α β : Type} {f : α → Except ε β}

theorem bind_eq_ok_iff {x : Except ε α} {g : α → Except ε β} {y : β} :
    x >>= g = .ok y ↔ ∃ a, x = .ok a ∧ g a = .ok y := by
  cases x with
  | error e =>
    constructor
    · intro h
      cases h
    · rintro ⟨a, h, -⟩
      cases h
  | ok a =>
    constructor
    · intro h
      exact ⟨a, rfl, h⟩
    · rintro ⟨b, hb, h⟩
      cases hb
      exact h

theorem pure_eq_ok_iff {x y : α} : (pure x : Except ε α) = .ok y ↔ x = y :=
  ⟨fun h => Except.ok.inj h, fun h => h ▸ rfl⟩

theorem bind_eq_error_iff {x : Except ε α} {g : α → Except ε β} {cause : ε} :
    x >>= g = .error cause ↔ x = .error cause ∨ ∃ a, x = .ok a ∧ g a = .error cause := by
  cases x with
  | error e =>
    constructor
    · intro h
      cases h
      exact Or.inl rfl
    · rintro (h | ⟨a, h, -⟩)
      · cases h
        rfl
      · cases h
  | ok a =>
    constructor
    · intro h
      exact Or.inr ⟨a, rfl, h⟩
    · rintro (h | ⟨b, hb, h⟩)
      · cases h
      · cases hb
        exact h

theorem mapM_eq_ok_iff {xs : List α} {ys : List β} :
    xs.mapM f = .ok ys ↔ List.Forall₂ (fun x y => f x = .ok y) xs ys := by
  induction xs generalizing ys with
  | nil =>
    rw [List.mapM_nil, pure_eq_ok_iff, List.forall₂_nil_left_iff]
    exact eq_comm
  | cons x xs ih =>
    rw [List.mapM_cons, bind_eq_ok_iff, List.forall₂_cons_left_iff]
    constructor
    · rintro ⟨y, hy, h⟩
      obtain ⟨zs, hzs, h⟩ := bind_eq_ok_iff.1 h
      exact ⟨y, zs, hy, ih.1 hzs, (pure_eq_ok_iff.1 h).symm⟩
    · rintro ⟨y, zs, hy, hzs, rfl⟩
      exact ⟨y, hy, bind_eq_ok_iff.2 ⟨zs, ih.2 hzs, rfl⟩⟩

theorem mapM_congr {g : α → Except ε β} {xs : List α} (h : ∀ x ∈ xs, f x = g x) :
    xs.mapM f = xs.mapM g := by
  induction xs with
  | nil => rfl
  | cons x xs ih =>
    rw [List.mapM_cons, List.mapM_cons, h x List.mem_cons_self,
      ih fun y hy => h y (List.mem_cons_of_mem x hy)]

theorem mapM_append_eq_ok_iff {xs₁ xs₂ : List α} {ys : List β} :
    (xs₁ ++ xs₂).mapM f = .ok ys ↔
      ∃ ys₁ ys₂, xs₁.mapM f = .ok ys₁ ∧ xs₂.mapM f = .ok ys₂ ∧ ys = ys₁ ++ ys₂ := by
  rw [List.mapM_append, bind_eq_ok_iff]
  constructor
  · rintro ⟨ys₁, h₁, h⟩
    obtain ⟨ys₂, h₂, h⟩ := bind_eq_ok_iff.1 h
    exact ⟨ys₁, ys₂, h₁, h₂, (pure_eq_ok_iff.1 h).symm⟩
  · rintro ⟨ys₁, ys₂, h₁, h₂, rfl⟩
    exact ⟨ys₁, h₁, bind_eq_ok_iff.2 ⟨ys₂, h₂, rfl⟩⟩

theorem mapM_reverse_eq_ok_iff {xs : List α} {ys : List β} :
    xs.reverse.mapM f = .ok ys ↔ xs.mapM f = .ok ys.reverse := by
  rw [mapM_eq_ok_iff, mapM_eq_ok_iff, ← List.forall₂_reverse_iff, List.reverse_reverse]

/-- A member of the results comes from a member of the list. -/
theorem exists_mem_of_mem_mapM {xs : List α} {ys : List β} {y : β} (h : xs.mapM f = .ok ys)
    (hy : y ∈ ys) : ∃ x ∈ xs, f x = .ok y := by
  rw [mapM_eq_ok_iff] at h
  induction h with
  | nil => cases hy
  | cons hx _ ih =>
    rcases List.mem_cons.1 hy with rfl | hy
    · exact ⟨_, List.mem_cons_self, hx⟩
    · obtain ⟨x, hmem, hx⟩ := ih hy
      exact ⟨x, List.mem_cons_of_mem _ hmem, hx⟩

/-- A member of the list has its result. -/
theorem exists_mem_mapM_of_mem {xs : List α} {ys : List β} {x : α} (h : xs.mapM f = .ok ys)
    (hx : x ∈ xs) : ∃ y ∈ ys, f x = .ok y := by
  rw [mapM_eq_ok_iff] at h
  induction h with
  | nil => cases hx
  | cons hy _ ih =>
    rcases List.mem_cons.1 hx with rfl | hx
    · exact ⟨_, List.mem_cons_self, hy⟩
    · obtain ⟨y, hmem, hy⟩ := ih hx
      exact ⟨y, List.mem_cons_of_mem _ hmem, hy⟩

/-- A traversal that fails gives the reason of a member. -/
theorem exists_mem_of_mapM_eq_error {xs : List α} {cause : ε} (h : xs.mapM f = .error cause) :
    ∃ x ∈ xs, f x = .error cause := by
  induction xs with
  | nil => cases h
  | cons x xs ih =>
    rw [List.mapM_cons, bind_eq_error_iff] at h
    rcases h with h | ⟨y, -, h⟩
    · exact ⟨x, List.mem_cons_self, h⟩
    · rcases bind_eq_error_iff.1 h with h | ⟨ys, -, h⟩
      · obtain ⟨z, hz, hcause⟩ := ih h
        exact ⟨z, List.mem_cons_of_mem x hz, hcause⟩
      · cases h

/-- The members of the results together. -/
theorem mem_flatten_of_mapM_eq_ok {f : α → Except ε (List β)} {xs : List α} {yss : List (List β)}
    (h : xs.mapM f = .ok yss) {y : β} :
    y ∈ yss.flatten ↔ ∃ x ∈ xs, ∃ ys, f x = .ok ys ∧ y ∈ ys := by
  rw [List.mem_flatten]
  constructor
  · rintro ⟨ys, hys, hy⟩
    obtain ⟨x, hx, hxys⟩ := exists_mem_of_mem_mapM h hys
    exact ⟨x, hx, ys, hxys, hy⟩
  · rintro ⟨x, hx, ys, hxys, hy⟩
    obtain ⟨ys', hys', hxys'⟩ := exists_mem_mapM_of_mem h hx
    obtain rfl : ys = ys' := Except.ok.inj (hxys.symm.trans hxys')
    exact ⟨ys, hys', hy⟩

theorem exists_mapM_eq_ok {xs : List α} (h : ∀ x ∈ xs, ∃ y, f x = .ok y) :
    ∃ ys, xs.mapM f = .ok ys := by
  induction xs with
  | nil => exact ⟨[], rfl⟩
  | cons x xs ih =>
    obtain ⟨y, hy⟩ := h x List.mem_cons_self
    obtain ⟨ys, hys⟩ := ih fun x hx => h x (List.mem_cons_of_mem _ hx)
    exact ⟨y :: ys, mapM_eq_ok_iff.2 (.cons hy (mapM_eq_ok_iff.1 hys))⟩

theorem mapM_eq_some_of_forall₂ {g : α → Option β} {xs : List α} {ys : List β}
    (h : List.Forall₂ (fun x y => g x = some y) xs ys) : xs.mapM g = some ys := by
  induction h with
  | nil => rfl
  | cons hx _ ih =>
    rw [List.mapM_cons, hx, ih]
    rfl

/-- A traversal that succeeds applies a function to each member. -/
theorem exists_map_of_mapM_eq_ok [Nonempty β] {xs : List α} {ys : List β} (h : xs.mapM f = .ok ys) :
    ∃ g : α → β, (∀ x ∈ xs, f x = .ok (g x)) ∧ ys = xs.map g := by
  have hvalue : ∀ x, ∃ y, x ∈ xs → f x = .ok y := by
    intro x
    by_cases hx : x ∈ xs
    · obtain ⟨y, -, hy⟩ := exists_mem_mapM_of_mem h hx
      exact ⟨y, fun _ => hy⟩
    · exact ⟨Classical.ofNonempty, fun hmem => absurd hmem hx⟩
  choose g hg using hvalue
  have hmap : xs.mapM f = .ok (xs.map g) := by
    rw [mapM_eq_ok_iff, List.forall₂_map_right_iff, List.forall₂_same]
    exact hg
  exact ⟨g, hg, Except.ok.inj (h.symm.trans hmap)⟩

/-- Where a result stands, a member has it, and the others have the results around it. -/
theorem filterMap_eq_append_cons_iff {g : α → Option β} {xs : List α} {before after : List β}
    {y : β} : xs.filterMap g = before ++ y :: after ↔ ∃ front x back,
      xs = front ++ x :: back ∧ g x = some y ∧ front.filterMap g = before ∧
        back.filterMap g = after := by
  constructor
  · intro h
    obtain ⟨front, rest, rfl, hfront, hrest⟩ := List.filterMap_eq_append_iff.1 h
    obtain ⟨dropped, x, back, rfl, hdropped, hx, hback⟩ := List.filterMap_eq_cons_iff.1 hrest
    refine ⟨front ++ dropped, x, back, by simp, hx, ?_, hback⟩
    rw [List.filterMap_append, List.filterMap_eq_nil_iff.2 hdropped, hfront, List.append_nil]
  · rintro ⟨front, x, back, rfl, hx, rfl, rfl⟩
    rw [List.filterMap_append, List.filterMap_cons_some hx]

/-- Functions with related values have related values joined together. -/
theorem forall₂_flatMap {γ : Type} {R : γ → γ → Prop} {g g' : α → List γ} {xs : List α}
    (h : ∀ x ∈ xs, List.Forall₂ R (g x) (g' x)) :
    List.Forall₂ R (xs.flatMap g) (xs.flatMap g') := by
  induction xs with
  | nil => exact .nil
  | cons x xs ih =>
    rw [List.flatMap_cons, List.flatMap_cons]
    exact List.rel_append (h x List.mem_cons_self) (ih fun y hy => h y (List.mem_cons_of_mem x hy))

/-! ## Failing -/

/-- The computation gives a reason instead of a result. -/
def Fails (x : Except ε α) : Prop := ∃ cause, x = .error cause

theorem fails_error (cause : ε) : Fails (.error cause : Except ε α) := ⟨cause, rfl⟩

theorem not_fails_ok (a : α) : ¬ Fails (.ok a : Except ε α) := by
  rintro ⟨cause, h⟩
  cases h

instance (x : Except ε α) : Decidable (Fails x) :=
  match x with
  | .ok a => isFalse (not_fails_ok a)
  | .error cause => isTrue (fails_error cause)

theorem not_fails_iff {x : Except ε α} : ¬ Fails x ↔ ∃ a, x = .ok a := by
  cases x with
  | ok a => exact ⟨fun _ => ⟨a, rfl⟩, fun _ => not_fails_ok a⟩
  | error cause =>
    constructor
    · intro h
      exact absurd (fails_error cause) h
    · rintro ⟨a, h⟩
      cases h

/-- A chain fails at its first link or behind it, where the result of that has no influence on whether
the rest fails. -/
theorem fails_bind_iff {x : Except ε α} {g : α → Except ε β} {P : Prop} (h : ∀ a, Fails (g a) ↔ P) :
    Fails (x >>= g) ↔ Fails x ∨ P := by
  cases x with
  | ok a => exact (h a).trans (or_iff_right (not_fails_ok a)).symm
  | error cause => exact iff_of_true (fails_error cause) (Or.inl (fails_error cause))

theorem fails_bind_pure_iff {x : Except ε α} {g : α → β} :
    Fails (x >>= fun a => pure (g a)) ↔ Fails x :=
  (fails_bind_iff fun a => iff_false_intro (not_fails_ok (g a))).trans (or_iff_left id)

theorem fails_mapM_iff {xs : List α} : Fails (xs.mapM f) ↔ ∃ x ∈ xs, Fails (f x) := by
  induction xs with
  | nil =>
    constructor
    · intro h
      exact absurd h (not_fails_ok [])
    · rintro ⟨x, hx, -⟩
      cases hx
  | cons x xs ih =>
    rw [List.mapM_cons, fails_bind_iff fun y => fails_bind_pure_iff, ih, List.exists_mem_cons_iff]

/-! ## Two computations -/

variable {α' β' : Type}

/-- Both fail for the same reason, or both succeed and `R` relates their results. -/
inductive Alike (R : α → α' → Prop) : Except ε α → Except ε α' → Prop
  | error (cause : ε) : Alike R (.error cause) (.error cause)
  | ok {a : α} {a' : α'} (h : R a a') : Alike R (.ok a) (.ok a')

namespace Alike

variable {R : α → α' → Prop} {Q : β → β' → Prop} {x : Except ε α} {x' : Except ε α'}

theorem fails_iff (h : Alike R x x') : Fails x' ↔ Fails x := by
  cases h with
  | error cause => exact iff_of_true (fails_error cause) (fails_error cause)
  | ok _ => exact iff_of_false (not_fails_ok _) (not_fails_ok _)

theorem bind (h : Alike R x x') {g : α → Except ε β} {g' : α' → Except ε β'}
    (hg : ∀ a a', x = .ok a → x' = .ok a' → R a a' → Alike Q (g a) (g' a')) :
    Alike Q (x >>= g) (x' >>= g') := by
  cases h with
  | error cause => exact .error cause
  | ok h => exact hg _ _ rfl rfl h

/-- Both computations begin alike. -/
theorem bind_left (x : Except ε α) {g : α → Except ε β} {g' : α → Except ε β'}
    (hg : ∀ a, x = .ok a → Alike Q (g a) (g' a)) : Alike Q (x >>= g) (x >>= g') := by
  cases x with
  | error cause => exact .error cause
  | ok a => exact hg a rfl

theorem mapM {f' : α → Except ε β'} {xs : List α} (h : ∀ x ∈ xs, Alike Q (f x) (f' x)) :
    Alike (List.Forall₂ Q) (xs.mapM f) (xs.mapM f') := by
  induction xs with
  | nil => exact .ok .nil
  | cons x xs ih =>
    rw [List.mapM_cons, List.mapM_cons]
    refine (h x List.mem_cons_self).bind fun y y' _ _ hy => ?_
    refine (ih fun z hz => h z (List.mem_cons_of_mem x hz)).bind fun ys ys' _ _ hys => ?_
    exact .ok (.cons hy hys)

end Alike

end TaxonomyPress
