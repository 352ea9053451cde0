import TaxonomyPress.Distinct
import TaxonomyPress.Proofs.Distance

/-!
# Walks level by level

A walk goes through its queue in rounds. Each round visits what is new in the queue that the round
before has left, and leaves the neighbours of these.

* `mem_distinctFrom_iff`, `distinctFrom_id` : what is new in a list, and in which order;
* `Steps.Round`, `Steps.round` : what was found before a round, and the queue it goes through;
  `Steps.level` : what the round adds;
* `Steps.breadthFirst_eq_levels` : a walk is its levels one after the other, up to one that is empty;
  `Steps.level_eq_nil_of_length_le` : there is one;
* `Steps.mem_level_iff` : level `k` holds what is `k` steps away from the nearest member of the queue.
-/

namespace TaxonomyPress

open Relation

/-! ## What is new in a list -/

section Distinct

variable {α κ : Type} [DecidableEq κ]

theorem mem_distinctFrom_iff {key : α → κ} {seen : List κ} {xs : List α} {x : α}
    (h : ∀ y ∈ xs, key y = key x → y = x) :
    x ∈ distinctFrom key seen xs ↔ x ∈ xs ∧ key x ∉ seen := by
  constructor
  · intro hx
    exact ⟨mem_of_mem_distinctFrom hx, key_notMem_of_mem_distinctFrom hx⟩
  · rintro ⟨hx, hseen⟩
    obtain ⟨y, hy, hkey⟩ := exists_mem_distinctFrom hx hseen
    exact h y (mem_of_mem_distinctFrom hy) hkey ▸ hy

/-- What has been seen may be left out first. -/
theorem distinctFrom_id (seen xs : List κ) :
    distinctFrom id seen xs = distinct (xs.filter (· ∉ seen)) := by
  have hfresh : ∀ x ∈ distinctFrom id seen xs, decide (x ∉ seen) = true := fun x hx =>
    decide_eq_true (key_notMem_of_mem_distinctFrom hx)
  rw [← List.filter_eq_self.2 hfresh, filter_distinctFrom]
  refine distinctFrom_congr fun x hx => iff_of_false ?_ List.not_mem_nil
  exact of_decide_eq_true (List.mem_filter.1 hx).2

end Distinct

namespace Steps

variable {α κ : Type} {s : Steps α κ} [DecidableEq κ] {queue : List α}

/-! ## One round -/

/-- Visited keys count as a set. -/
theorem breadthFirst_congr {seen seen' : List κ} (h : ∀ k, k ∈ seen ↔ k ∈ seen') :
    s.breadthFirst seen queue = s.breadthFirst seen' queue := by
  fun_induction breadthFirst s seen queue generalizing seen' with
  | case1 => rw [breadthFirst]
  | case2 seen x queue hx ih =>
    rw [breadthFirst, dif_pos ((h _).1 hx)]
    exact ih h
  | case3 seen x queue hx ih =>
    rw [breadthFirst, dif_neg (mt (h _).2 hx)]
    refine congrArg (List.cons x) (ih fun k => ?_)
    rw [List.mem_cons, List.mem_cons, h]

/-- A walk visits what is new in the front of its queue, and then goes on with the rest and the
neighbours of these. -/
theorem breadthFirst_append (seen : List κ) (queue rest : List α) :
    s.breadthFirst seen (queue ++ rest) = distinctFrom s.key seen queue ++
      s.breadthFirst (seen ++ (distinctFrom s.key seen queue).map s.key)
        (rest ++ (distinctFrom s.key seen queue).flatMap s.next) := by
  induction queue generalizing seen rest with
  | nil => simp [distinctFrom]
  | cons x queue ih =>
    rw [List.cons_append, breadthFirst, distinctFrom]
    by_cases hx : s.key x ∈ seen
    · rw [dif_pos hx, if_pos hx]
      exact ih seen rest
    · rw [dif_neg hx, if_neg hx, List.append_assoc, ih, List.cons_append, List.flatMap_cons,
        List.append_assoc rest]
      refine congrArg (fun tail => x :: (_ ++ tail)) (breadthFirst_congr fun k => ?_)
      simp only [List.mem_append, List.mem_cons, List.map_cons, or_left_comm]

/-! ## All rounds -/

/-- Before a round of a walk: what has been found, and the queue that is left. -/
structure Round (α : Type) where
  found : List α
  pending : List α

/-- What the round adds. -/
def Round.level (s : Steps α κ) (round : Round α) : List α :=
  distinctFrom s.key (round.found.map s.key) round.pending

/-- Round `k` of the walk through `queue`. -/
def round (s : Steps α κ) (queue : List α) : Nat → Round α
  | 0 => ⟨[], queue⟩
  | k + 1 =>
    let before := round s queue k
    ⟨before.found ++ before.level s, (before.level s).flatMap s.next⟩

/-- What round `k` adds. -/
def level (s : Steps α κ) (queue : List α) (k : Nat) : List α := (s.round queue k).level s

theorem level_zero (s : Steps α κ) (queue : List α) : s.level queue 0 = distinctBy s.key queue := rfl

theorem level_succ (s : Steps α κ) (queue : List α) (k : Nat) : s.level queue (k + 1) =
    distinctFrom s.key ((s.round queue (k + 1)).found.map s.key)
      ((s.level queue k).flatMap s.next) := rfl

theorem found_succ (s : Steps α κ) (queue : List α) (k : Nat) :
    (s.round queue (k + 1)).found = (s.round queue k).found ++ s.level queue k := rfl

theorem found_eq_levels (s : Steps α κ) (queue : List α) (k : Nat) :
    (s.round queue k).found = (List.range k).flatMap (s.level queue) := by
  induction k with
  | zero => rfl
  | succ k ih =>
    rw [found_succ, ih, List.range_succ, List.flatMap_append, List.flatMap_singleton]

theorem mem_found_iff {k : Nat} {x : α} :
    x ∈ (s.round queue k).found ↔ ∃ j < k, x ∈ s.level queue j := by
  rw [found_eq_levels, List.mem_flatMap]
  simp only [List.mem_range]

theorem level_succ_eq_nil {k : Nat} (h : s.level queue k = []) : s.level queue (k + 1) = [] := by
  rw [level_succ, h]
  rfl

/-- The rounds before `k` are a walk up to there. -/
theorem breadthFirst_eq_round (s : Steps α κ) (queue : List α) (k : Nat) :
    s.breadthFirst [] queue = (s.round queue k).found ++
      s.breadthFirst ((s.round queue k).found.map s.key) (s.round queue k).pending := by
  induction k with
  | zero => rfl
  | succ k ih =>
    have hround := breadthFirst_append (s := s) ((s.round queue k).found.map s.key)
      (s.round queue k).pending []
    rw [List.append_nil, List.nil_append, ← List.map_append] at hround
    rw [ih, hround, ← List.append_assoc]
    rfl

/-- **A walk is its levels, one after the other.** -/
theorem breadthFirst_eq_levels {k : Nat} (h : s.level queue k = []) :
    s.breadthFirst [] queue = (List.range k).flatMap (s.level queue) := by
  have hrest := breadthFirst_append (s := s) ((s.round queue k).found.map s.key)
    (s.round queue k).pending []
  have hnone : distinctFrom s.key ((s.round queue k).found.map s.key) (s.round queue k).pending = [] :=
    h
  rw [List.append_nil, hnone] at hrest
  rw [breadthFirst_eq_round s queue k, hrest, found_eq_levels]
  simp [breadthFirst]

theorem lt_length_found {k : Nat} (h : s.level queue k ≠ []) :
    k < (s.round queue (k + 1)).found.length := by
  have hpos : 0 < (s.level queue k).length := List.length_pos_iff.2 h
  induction k with
  | zero =>
    rw [found_succ, List.length_append]
    omega
  | succ k ih =>
    have hbefore : s.level queue k ≠ [] := fun hnil => h (level_succ_eq_nil hnil)
    have hfound := ih hbefore (List.length_pos_iff.2 hbefore)
    rw [found_succ, List.length_append]
    omega

/-- Every round before the first empty one finds something, so there are no more of them than
visits. -/
theorem level_eq_nil_of_length_le {k : Nat} (h : (s.breadthFirst [] queue).length ≤ k) :
    s.level queue k = [] := by
  by_contra hlevel
  have hfound := lt_length_found hlevel
  rw [breadthFirst_eq_round s queue (k + 1), List.length_append] at h
  omega

/-! ## How far away a level is -/

/-- `k` steps lead to `x` from a member of `queue`, and no fewer from any. -/
def AtDepth (R : α → α → Prop) (queue : List α) (k : Nat) (x : α) : Prop :=
  (∃ a ∈ queue, Way R a k x) ∧ ∀ j < k, ∀ a ∈ queue, ¬ Way R a j x

section Depth

variable {R : α → α → Prop} {k : Nat} {a x : α}

theorem atDepth_zero_iff : AtDepth R queue 0 x ↔ x ∈ queue := by
  constructor
  · rintro ⟨⟨a, ha, _ | _⟩, -⟩
    exact ha
  · intro hx
    exact ⟨⟨x, hx, .refl⟩, fun j hj => absurd hj (Nat.not_lt_zero j)⟩

/-- What ways lead to is at the depth of the shortest. -/
theorem exists_atDepth (ha : a ∈ queue) (h : Way R a k x) : ∃ j ≤ k, AtDepth R queue j x := by
  classical
  have hway : ∃ j, ∃ a ∈ queue, Way R a j x := ⟨k, a, ha, h⟩
  refine ⟨Nat.find hway, Nat.find_le ⟨a, ha, h⟩, Nat.find_spec hway, fun j hj b hb hb' => ?_⟩
  exact Nat.find_min hway hj ⟨b, hb, hb'⟩

/-- One step behind depth `k` lies what is at depth `k + 1`, and what was at a lesser depth. -/
theorem atDepth_succ_iff : AtDepth R queue (k + 1) x ↔
    (∃ y, AtDepth R queue k y ∧ R y x) ∧ ¬ ∃ j < k + 1, AtDepth R queue j x := by
  constructor
  · rintro ⟨⟨a, ha, hway⟩, hshortest⟩
    refine ⟨?_, fun ⟨j, hj, ⟨b, hb, hb'⟩, _⟩ => hshortest j hj b hb hb'⟩
    obtain _ | ⟨hway, hstep⟩ := hway
    refine ⟨_, ⟨⟨a, ha, hway⟩, fun j hj b hb hb' => ?_⟩, hstep⟩
    exact hshortest (j + 1) (Nat.succ_lt_succ hj) b hb (.tail hb' hstep)
  · rintro ⟨⟨y, ⟨⟨a, ha, hway⟩, -⟩, hstep⟩, hnone⟩
    refine ⟨⟨a, ha, .tail hway hstep⟩, fun j hj b hb hb' => ?_⟩
    obtain ⟨i, hi, hdepth⟩ := exists_atDepth hb hb'
    exact hnone ⟨i, Nat.lt_of_le_of_lt hi hj, hdepth⟩

end Depth

/-- **Level `k` holds what is `k` steps away**, if no two nodes have one key. -/
theorem mem_level_iff (hkey : Function.Injective s.key) {k : Nat} {x : α} :
    x ∈ s.level queue k ↔ AtDepth s.Leads queue k x := by
  induction k using Nat.strongRecOn generalizing x with
  | ind k ih =>
    cases k with
    | zero =>
      rw [level_zero, distinctBy, mem_distinctFrom_iff fun _ _ h => hkey h, atDepth_zero_iff]
      exact and_iff_left List.not_mem_nil
    | succ k =>
      rw [level_succ, mem_distinctFrom_iff fun _ _ h => hkey h, List.mem_map_of_injective hkey,
        mem_found_iff, atDepth_succ_iff, List.mem_flatMap]
      refine and_congr (exists_congr fun y => and_congr_left' (ih k (Nat.lt_succ_self k)))
        (not_congr (exists_congr fun j => and_congr_right fun hj => ih j hj))

end Steps

end TaxonomyPress
