/-!
# Walks along steps

* `Steps` : where one can go from each node, and a key by which nodes count as visited; the steps
  lead to finitely many keys, so every walk ends;
* `remaining` : how many keys are not yet visited; each visit makes it smaller
  (`remaining_cons_lt`);
* `Steps.breadthFirst` : visits nodes in the order in which they enter a queue, each key once;
* `Steps.reached` : what a node leads to; `Steps.firstChain` : where the first steps lead.
-/

namespace TaxonomyPress

/-- Where one can go from each node. Nodes with the same key count as the same. -/
structure Steps (α κ : Type) where
  next : α → List α
  key : α → κ
  finite : ∃ keys : List κ, ∀ x, ∀ y ∈ next x, key y ∈ keys

/-- The number of `keys` that are not in `seen`. -/
def remaining {κ : Type} [DecidableEq κ] (keys seen : List κ) : Nat :=
  (keys.filter (· ∉ seen)).length

section

variable {κ : Type} [DecidableEq κ] {keys seen : List κ} {k : κ}

theorem remaining_cons_le : remaining keys (k :: seen) ≤ remaining keys seen := by
  unfold remaining
  induction keys with
  | nil => simp
  | cons x xs ih =>
    by_cases hx : x ∈ seen <;> by_cases hk : x = k <;> simp_all
    omega

theorem remaining_cons_lt (hk : k ∈ keys) (hs : k ∉ seen) :
    remaining keys (k :: seen) < remaining keys seen := by
  induction keys with
  | nil => simp at hk
  | cons x xs ih =>
    have hle : remaining xs (k :: seen) ≤ remaining xs seen := remaining_cons_le
    unfold remaining at ih hle ⊢
    by_cases hxk : x = k
    · subst hxk
      simp only [List.filter_cons, List.mem_cons, true_or, not_true_eq_false, decide_false,
        hs, not_false_eq_true, decide_true, if_true, List.length_cons]
      simp only [List.mem_cons] at hle
      simpa using Nat.lt_succ_of_le hle
    · have hlt := ih ((List.mem_cons.1 hk).resolve_left (Ne.symm hxk))
      by_cases hx : x ∈ seen <;> simp_all

end

namespace Steps

variable {α κ : Type} (s : Steps α κ)

/-- Keys enough for everything that the steps lead to. -/
noncomputable def keys : List κ := Classical.choose s.finite

theorem key_mem_keys {s : Steps α κ} {x y : α} (h : y ∈ s.next x) : s.key y ∈ s.keys :=
  Classical.choose_spec s.finite x y h

variable [DecidableEq κ]

/-- The members of `queue` that no step leads to. -/
noncomputable def outsiders (queue : List α) : Nat := (queue.filter fun x => s.key x ∉ s.keys).length

/-- The visits that a walk can still make. -/
noncomputable def visitsLeft (seen : List κ) (queue : List α) : Nat :=
  remaining s.keys seen + s.outsiders queue

theorem visitsLeft_skip_le {seen : List κ} {x : α} {queue : List α} :
    s.visitsLeft seen queue ≤ s.visitsLeft seen (x :: queue) := by
  simp only [visitsLeft, outsiders, List.filter_cons]
  split <;> simp

theorem visitsLeft_visit_lt {seen : List κ} {x : α} {queue : List α} (hx : s.key x ∉ seen) :
    s.visitsLeft (s.key x :: seen) (queue ++ s.next x) < s.visitsLeft seen (x :: queue) := by
  have hnext : s.outsiders (queue ++ s.next x) = s.outsiders queue := by
    simpa [outsiders] using fun y hy => key_mem_keys hy
  unfold visitsLeft
  rw [hnext]
  by_cases hk : s.key x ∈ s.keys
  · have := remaining_cons_lt hk hx
    simp only [outsiders, List.filter_cons, hk]
    simp
    omega
  · have : remaining s.keys (s.key x :: seen) ≤ remaining s.keys seen := remaining_cons_le
    simp only [outsiders, List.filter_cons, hk]
    simp
    omega

/-- The members of `queue` and what they lead to, breadth first, without those whose key is in
`seen` or belongs to an earlier one. -/
def breadthFirst (seen : List κ) (queue : List α) : List α :=
  match queue with
  | [] => []
  | x :: queue =>
    if _h : s.key x ∈ seen then breadthFirst seen queue
    else x :: breadthFirst (s.key x :: seen) (queue ++ s.next x)
termination_by (s.visitsLeft seen queue, queue.length)
decreasing_by
  · have hle : s.visitsLeft seen queue ≤ s.visitsLeft seen (x :: queue) := s.visitsLeft_skip_le
    rcases Nat.lt_or_eq_of_le hle with hlt | heq
    · exact Prod.Lex.left _ _ hlt
    · rw [heq]
      exact Prod.Lex.right _ (by simp)
  · exact Prod.Lex.left _ _ (s.visitsLeft_visit_lt _h)

/-- Everything that steps lead to from `start`, the nearest first, without `start` itself. -/
def reached (start : α) : List α := s.breadthFirst [s.key start] (s.next start)

/-- The first node that `x` leads to, the first one that this leads to, and so on, up to one whose
key is in `seen` or belongs to an earlier one. -/
def firstChain (seen : List κ) (x : α) : List α :=
  match _h : (s.next x).head? with
  | none => []
  | some y => if _hy : s.key y ∈ seen then [] else y :: firstChain (s.key y :: seen) y
termination_by remaining s.keys seen
decreasing_by exact remaining_cons_lt (key_mem_keys (List.mem_of_mem_head? _h)) _hy

end Steps

end TaxonomyPress
