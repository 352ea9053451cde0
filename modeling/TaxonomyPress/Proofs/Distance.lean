import TaxonomyPress.Proofs.Walks
import Mathlib.Order.Lattice.Nat

/-!
# How far away a walk finds things

* `Way R a k b` : `k` steps of `R` lead from `a` to `b`; `distance R a b` : the fewest that do;
* `Steps.Leveled` : every member of the queue is known to be some number of steps away, these numbers
  grow along the queue by one at most, and no visited node has a neighbour that is neither visited nor
  in the queue at most one step farther away;
* `Steps.Leveled.skip`, `Steps.Leveled.visit` : a walk keeps that;
* `Steps.pairwise_reached` : so it finds nothing before what is nearer.
-/

namespace TaxonomyPress

open Relation

/-! ## Ways and their lengths -/

section Ways

variable {α β : Type} {R : α → α → Prop} {S : β → β → Prop} {a b c : α} {k : Nat}

/-- A way of `k` steps of `R` leads from `a` to `b`. -/
inductive Way (R : α → α → Prop) (a : α) : Nat → α → Prop where
  | refl : Way R a 0 a
  | tail {k : Nat} {b c : α} (way : Way R a k b) (step : R b c) : Way R a (k + 1) c

theorem Way.head (hab : R a b) (h : Way R b k c) : Way R a (k + 1) c := by
  induction h with
  | refl => exact .tail .refl hab
  | tail _ hstep ih => exact .tail ih hstep

/-- Walked backwards a way is as long. -/
theorem Way.swap (h : Way R a k b) : Way (Function.swap R) b k a := by
  induction h with
  | refl => exact .refl
  | tail _ hstep ih => exact .head hstep ih

theorem Way.map {f : α → β} (h : Way R a k b) (hf : ∀ x y, R x y → S (f x) (f y)) :
    Way S (f a) k (f b) := by
  induction h with
  | refl => exact .refl
  | tail _ hstep ih => exact .tail ih (hf _ _ hstep)

theorem exists_way_iff : (∃ k, Way R a k b) ↔ ReflTransGen R a b := by
  constructor
  · rintro ⟨k, h⟩
    induction h with
    | refl => exact .refl
    | tail _ hstep ih => exact .tail ih hstep
  · intro h
    induction h with
    | refl => exact ⟨0, .refl⟩
    | tail _ hstep ih =>
      obtain ⟨k, hk⟩ := ih
      exact ⟨k + 1, .tail hk hstep⟩

theorem transGen_iff_exists_way : TransGen R a b ↔ ∃ k, Way R a (k + 1) b := by
  rw [TransGen.tail'_iff]
  constructor
  · rintro ⟨c, hc, hstep⟩
    obtain ⟨k, hk⟩ := exists_way_iff.2 hc
    exact ⟨k, .tail hk hstep⟩
  · rintro ⟨k, _ | ⟨hway, hstep⟩⟩
    exact ⟨_, exists_way_iff.1 ⟨k, hway⟩, hstep⟩

/-- The length of the shortest way from `a` to `b`; without a way it is `0`. -/
noncomputable def distance (R : α → α → Prop) (a b : α) : Nat := sInf {k | Way R a k b}

theorem distance_le (h : Way R a k b) : distance R a b ≤ k := Nat.sInf_le h

theorem way_distance (h : ReflTransGen R a b) : Way R a (distance R a b) b :=
  Nat.sInf_mem (exists_way_iff.2 h)

theorem distance_self (R : α → α → Prop) (a : α) : distance R a a = 0 :=
  Nat.le_zero.1 (distance_le .refl)

/-- Where ways correspond, so do their shortest lengths. -/
theorem distance_congr {a' b' : β} (h : ∀ k, Way R a k b ↔ Way S a' k b') :
    distance R a b = distance S a' b' :=
  congrArg sInf (Set.ext h)

end Ways

/-! ## Walks -/

namespace Steps

variable {α κ : Type} {s : Steps α κ} {P : α → Prop} {start : α} {seen : List κ}
  {queue : List (Nat × α)} {entry : Nat × α}

theorem map_snd_found (k : Nat) (xs : List α) : (xs.map (k, ·)).map (·.2) = xs := by
  rw [List.map_map]
  exact List.map_id xs

/-- What a walk from `start` knows of its queue, where each member stands with the length of the way
on which it was found. -/
structure Leveled (s : Steps α κ) (start : α) (seen : List κ) (queue : List (Nat × α)) : Prop where
  start_seen : s.key start ∈ seen
  way : ∀ e ∈ queue, Way s.Leads start e.1 e.2
  sorted : queue.Pairwise fun e f => e.1 ≤ f.1
  span : ∀ e ∈ queue, ∀ f ∈ queue, f.1 ≤ e.1 + 1
  frontier : ∀ x k, Way s.Leads start k x → s.key x ∈ seen → ∀ y ∈ s.next x,
    s.key y ∈ seen ∨ ∃ e ∈ queue, e.2 = y ∧ e.1 ≤ k + 1

/-- A way to a node that is not visited leaves the visited ones through the queue. -/
theorem Leveled.exists_le (h : s.Leveled start seen queue) {k : Nat} {y : α}
    (hy : Way s.Leads start k y) (hkey : s.key y ∉ seen) : ∃ e ∈ queue, e.1 ≤ k := by
  induction hy with
  | refl => exact absurd h.start_seen hkey
  | @tail k x y hx hstep ih =>
    by_cases hxkey : s.key x ∈ seen
    · rcases h.frontier x k hx hxkey y hstep with hseen | ⟨e, he, -, hle⟩
      · exact absurd hseen hkey
      · exact ⟨e, he, hle⟩
    · obtain ⟨e, he, hle⟩ := ih hxkey
      exact ⟨e, he, Nat.le_succ_of_le hle⟩

/-- Nothing that is not visited is nearer than the head of the queue. -/
theorem Leveled.head_le (h : s.Leveled start seen (entry :: queue)) {k : Nat} {y : α}
    (hy : Way s.Leads start k y) (hkey : s.key y ∉ seen) : entry.1 ≤ k := by
  obtain ⟨e, he, hle⟩ := h.exists_le hy hkey
  rcases List.mem_cons.1 he with rfl | he
  · exact hle
  · exact ((List.pairwise_cons.1 h.sorted).1 e he).trans hle

theorem FaithfulOn.of_way (hs : s.FaithfulOn P) (hstart : P start) {k : Nat} {x : α}
    (hx : Way s.Leads start k x) : P x := by
  induction hx with
  | refl => exact hstart
  | tail _ hstep ih => exact hs.closed _ ih _ hstep

theorem leveled_start (hs : s.FaithfulOn P) (hstart : P start) :
    s.Leveled start [s.key start] ((s.next start).map (1, ·)) where
  start_seen := List.mem_singleton_self _
  way e he := by
    obtain ⟨y, hy, rfl⟩ := List.mem_map.1 he
    exact .tail .refl hy
  sorted := List.pairwise_map.2 (List.pairwise_of_forall fun _ _ => Nat.le_refl 1)
  span e he f hf := by
    obtain ⟨-, -, rfl⟩ := List.mem_map.1 he
    obtain ⟨-, -, rfl⟩ := List.mem_map.1 hf
    exact Nat.le_succ 1
  frontier x k hx hkey y hy := by
    have hPx : P x := hs.of_way hstart hx
    obtain rfl : x = start := hs.key_inj x start hPx hstart (List.mem_singleton.1 hkey)
    exact Or.inr ⟨(1, y), List.mem_map_of_mem hy, rfl, Nat.le_add_left 1 k⟩

/-- A walk may pass over a member of the queue that is visited already. -/
theorem Leveled.skip (h : s.Leveled start seen (entry :: queue)) (hkey : s.key entry.2 ∈ seen) :
    s.Leveled start seen queue where
  start_seen := h.start_seen
  way e he := h.way e (List.mem_cons_of_mem _ he)
  sorted := (List.pairwise_cons.1 h.sorted).2
  span e he f hf := h.span e (List.mem_cons_of_mem _ he) f (List.mem_cons_of_mem _ hf)
  frontier x k hx hxkey y hy := by
    rcases h.frontier x k hx hxkey y hy with hseen | ⟨e, he, rfl, hle⟩
    · exact Or.inl hseen
    · rcases List.mem_cons.1 he with rfl | he
      · exact Or.inl hkey
      · exact Or.inr ⟨e, he, rfl, hle⟩

/-- A walk visits the head of the queue and finds its neighbours one step behind it. -/
theorem Leveled.visit (hs : s.FaithfulOn P) (hstart : P start)
    (h : s.Leveled start seen (entry :: queue)) (hkey : s.key entry.2 ∉ seen) :
    s.Leveled start (s.key entry.2 :: seen)
      (queue ++ (s.next entry.2).map (entry.1 + 1, ·)) := by
  have hway : Way s.Leads start entry.1 entry.2 := h.way entry List.mem_cons_self
  have hhead : ∀ e ∈ queue, entry.1 ≤ e.1 := (List.pairwise_cons.1 h.sorted).1
  have hspan : ∀ e ∈ queue, e.1 ≤ entry.1 + 1 := fun e he =>
    h.span entry List.mem_cons_self e (List.mem_cons_of_mem _ he)
  refine ⟨List.mem_cons_of_mem _ h.start_seen, ?_, ?_, ?_, ?_⟩
  · intro e he
    rcases List.mem_append.1 he with he | he
    · exact h.way e (List.mem_cons_of_mem _ he)
    · obtain ⟨y, hy, rfl⟩ := List.mem_map.1 he
      exact .tail hway hy
  · refine List.pairwise_append.2 ⟨(List.pairwise_cons.1 h.sorted).2, ?_, ?_⟩
    · exact List.pairwise_map.2 (List.pairwise_of_forall fun _ _ => Nat.le_refl _)
    · intro e he f hf
      obtain ⟨-, -, rfl⟩ := List.mem_map.1 hf
      exact hspan e he
  · have hbounds : ∀ e ∈ queue ++ (s.next entry.2).map (entry.1 + 1, ·),
        entry.1 ≤ e.1 ∧ e.1 ≤ entry.1 + 1 := by
      intro e he
      rcases List.mem_append.1 he with he | he
      · exact ⟨hhead e he, hspan e he⟩
      · obtain ⟨-, -, rfl⟩ := List.mem_map.1 he
        exact ⟨Nat.le_succ _, Nat.le_refl _⟩
    intro e he f hf
    exact (hbounds f hf).2.trans (Nat.succ_le_succ (hbounds e he).1)
  · intro x k hx hxkey y hy
    rcases List.mem_cons.1 hxkey with heq | hxkey
    · -- the node itself: no way to it is shorter than the one on which it was found
      obtain rfl : x = entry.2 :=
        hs.key_inj x entry.2 (hs.of_way hstart hx) (hs.of_way hstart hway) heq
      have hle : entry.1 ≤ k := h.head_le hx hkey
      refine Or.inr ⟨(entry.1 + 1, y), ?_, rfl, Nat.succ_le_succ hle⟩
      exact List.mem_append_right _ (List.mem_map_of_mem hy)
    · rcases h.frontier x k hx hxkey y hy with hseen | ⟨e, he, rfl, hle⟩
      · exact Or.inl (List.mem_cons_of_mem _ hseen)
      · rcases List.mem_cons.1 he with rfl | he
        · exact Or.inl List.mem_cons_self
        · exact Or.inr ⟨e, List.mem_append_left _ he, rfl, hle⟩

variable [DecidableEq κ]

/-- What a walk visits comes by its distance from the start. -/
theorem Leveled.pairwise_breadthFirst (hs : s.FaithfulOn P) (hstart : P start)
    (h : s.Leveled start seen queue) : (s.breadthFirst seen (queue.map (·.2))).Pairwise
      fun x y => distance s.Leads start x ≤ distance s.Leads start y := by
  generalize hnodes : queue.map (·.2) = nodes
  fun_induction breadthFirst s seen nodes generalizing queue with
  | case1 => exact .nil
  | case2 seen x nodes hx ih =>
    obtain ⟨e, queue, rfl, rfl, rfl⟩ := List.map_eq_cons_iff.1 hnodes
    exact ih (h.skip hx) rfl
  | case3 seen x nodes hx ih =>
    obtain ⟨e, queue, rfl, rfl, rfl⟩ := List.map_eq_cons_iff.1 hnodes
    have hvisit := h.visit hs hstart hx
    have hqueue : (queue ++ (s.next e.2).map (e.1 + 1, ·)).map (·.2) =
        queue.map (·.2) ++ s.next e.2 := by
      rw [List.map_append, map_snd_found]
    refine List.pairwise_cons.2 ⟨fun y hy => ?_, ih hvisit hqueue⟩
    have hreach : ReflTransGen s.Leads start y := by
      rw [← hqueue] at hy
      refine closed_of_mem_breadthFirst (fun _ hx _ hstep => hx.tail hstep) (fun z hz => ?_) hy
      obtain ⟨f, hf, rfl⟩ := List.mem_map.1 hz
      exact exists_way_iff.1 ⟨f.1, hvisit.way f hf⟩
    have hykey : s.key y ∉ seen := fun hmem =>
      key_notMem_of_mem_breadthFirst hy (List.mem_cons_of_mem _ hmem)
    calc distance s.Leads start e.2 ≤ e.1 := distance_le (h.way e List.mem_cons_self)
      _ ≤ distance s.Leads start y := h.head_le (way_distance hreach) hykey

/-- **A walk finds nothing before what is nearer.** -/
theorem pairwise_reached (hs : s.FaithfulOn P) (hstart : P start) : (s.reached start).Pairwise
    fun x y => distance s.Leads start x ≤ distance s.Leads start y := by
  have hwalk := (leveled_start hs hstart).pairwise_breadthFirst hs hstart
  rwa [map_snd_found] at hwalk

end Steps

end TaxonomyPress
