import TaxonomyPress.Taxonomy

/-!
# The orders of texts and the lists they sort

* `lexicographic_eq_compareLex` : the order of lists is the one of the library, so it inherits
  that order's laws;
* `compareText`, `Taxonomy.compareNamed` : both are transitive and total;
* `mem_sortWith`, `pairwise_sortWith` : a sorted list has the same members, and no later one is
  smaller;
* `pairwise_lt_sortWith` : without ties each member is smaller than every later one;
* `sortWith_eq_of_perm` : where only equal members tie, the order before sorting does not matter.
-/

namespace TaxonomyPress

open Std

/-! ## Lawful orders -/

theorem compareNat_eq_compare (m n : Nat) : compareNat m n = compare m n := by
  unfold compareNat
  rw [Nat.compare_eq_ite_lt]
  split
  · rfl
  · split <;> split <;> first | rfl | omega

theorem lexicographic_eq_compareLex {α : Type} (order : α → α → Ordering) :
    lexicographic order = List.compareLex order := by
  funext xs ys
  induction xs generalizing ys with
  | nil => cases ys <;> rfl
  | cons x xs ih =>
    cases ys with
    | nil => rfl
    | cons y ys =>
      rw [List.compareLex_cons_cons, lexicographic, ← ih]
      cases order x y <;> rfl

/-- An order read off an attribute. -/
theorem transCmp_comap {α β : Type} (order : β → β → Ordering) [TransCmp order] (f : α → β) :
    TransCmp (fun a b => order (f a) (f b)) where
  eq_swap := OrientedCmp.eq_swap
  isLE_trans := TransCmp.isLE_trans

instance : TransCmp compareText := by
  have hnat : (fun c d : Char => compareNat c.toNat d.toNat) = fun c d => compare c.toNat d.toNat := by
    funext c d
    exact compareNat_eq_compare _ _
  have hchar : TransCmp (fun c d : Char => compare c.toNat d.toNat) := transCmp_comap compare Char.toNat
  have htext : compareText = fun s t : String =>
      List.compareLex (fun c d : Char => compare c.toNat d.toNat) s.toList t.toList := by
    funext s t
    rw [compareText, hnat, lexicographic_eq_compareLex]
  rw [htext]
  exact transCmp_comap _ String.toList

instance : TransCmp (lexicographic compareText) := by
  rw [lexicographic_eq_compareLex]
  infer_instance

instance : TransCmp Taxonomy.compareNamed := by
  have hname := transCmp_comap compareText (fun a : String × Node => a.1)
  have hid := transCmp_comap compareText (fun a : String × Node => a.2.identifier)
  exact inferInstanceAs (TransCmp (compareLex _ _))

theorem compareNamed_eq_iff {a b : String × Node} :
    Taxonomy.compareNamed a b = .eq ↔ a.1 = b.1 ∧ a.2.identifier = b.2.identifier := by
  rw [Taxonomy.compareNamed, Ordering.then_eq_eq, compareText_eq_iff, compareText_eq_iff]

/-! ## Sorting -/

section Sorting

variable {α : Type} {order : α → α → Ordering} {xs : List α}

theorem perm_sortWith (order : α → α → Ordering) (xs : List α) : (sortWith order xs).Perm xs :=
  List.mergeSort_perm _ _

theorem mem_sortWith {x : α} : x ∈ sortWith order xs ↔ x ∈ xs := (perm_sortWith order xs).mem_iff

theorem pairwise_sortWith [TransCmp order] (xs : List α) :
    (sortWith order xs).Pairwise fun a b => (order a b).isLE := by
  apply List.pairwise_mergeSort
  · intro a b c hab hbc
    exact TransCmp.isLE_trans hab hbc
  · intro a b
    have hswap : order b a = (order a b).swap := OrientedCmp.eq_swap
    rw [hswap]
    cases order a b <;> rfl

/-- A list without ties is sorted strictly. -/
theorem pairwise_lt_sortWith [TransCmp order] (h : xs.Pairwise fun a b => order a b ≠ .eq) :
    (sortWith order xs).Pairwise fun a b => order a b = .lt := by
  have hne : (sortWith order xs).Pairwise fun a b => order a b ≠ .eq := by
    refine h.perm (perm_sortWith order xs).symm ?_
    intro a b hab hba
    exact hab (OrientedCmp.eq_symm hba)
  refine (pairwise_sortWith xs).imp₂ ?_ hne
  intro a b hle hne
  cases hab : order a b with
  | lt => rfl
  | eq => exact absurd hab hne
  | gt => rw [hab] at hle; cases hle

/-- Where only equal members tie, a list and its rearrangements are sorted alike. -/
theorem sortWith_eq_of_perm [TransCmp order] {ys : List α} (hperm : xs.Perm ys)
    (hties : ∀ a ∈ xs, ∀ b ∈ xs, order a b = .eq → a = b) :
    sortWith order xs = sortWith order ys := by
  have hsorted : (sortWith order xs).Perm (sortWith order ys) :=
    (perm_sortWith order xs).trans (hperm.trans (perm_sortWith order ys).symm)
  refine hsorted.eq_of_pairwise ?_ (pairwise_sortWith xs) (pairwise_sortWith ys)
  intro a b ha hb hab hba
  apply hties a (mem_sortWith.1 ha) b (hperm.mem_iff.2 (mem_sortWith.1 hb))
  have hswap : order b a = (order a b).swap := OrientedCmp.eq_swap
  rw [hswap] at hba
  cases h : order a b with
  | lt => rw [h] at hba; cases hba
  | eq => rfl
  | gt => rw [h] at hab; cases hab

end Sorting

end TaxonomyPress
