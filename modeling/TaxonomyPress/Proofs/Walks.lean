import TaxonomyPress.Steps
import Mathlib.Data.List.Nodup
import Mathlib.Logic.Relation

/-!
# What walks visit

* `Steps.Leads` : one step; `Steps.FaithfulOn P` : on the nodes of `P`, which no step leaves, keys
  tell nodes apart;
* `Steps.nodup_reached` : a walk visits each key once;
* `Steps.reached_of_next_eq_singleton` : where there is one step only, the walk is that of the next node;
* `Steps.closed_of_mem_reached` : it stays among nodes that no step leaves;
* `Steps.mem_breadthFirst_iff` : it visits what the queue leads to around the visited keys;
* `Steps.mem_reached_iff` : from one node, everything else that steps lead to, which is what they lead to
  without coming back (`Steps.mem_cons_reached_iff`);
* `Steps.firstChain_eq_breadthFirst` : the chain of first nodes is a walk along first steps;
* `Steps.perm_reached` : walks along the same steps in another order visit the same nodes;
* `Steps.AgreesOn` : the same steps on all nodes that walks can come to; then the walks are the same
  (`AgreesOn.reached_eq`, `AgreesOn.firstChain_eq`).
-/

namespace TaxonomyPress.Steps

open Relation

variable {α κ : Type} {s : Steps α κ}

/-- There is a step from `x` to `y`. -/
def Leads (s : Steps α κ) (x y : α) : Prop := y ∈ s.next x

/-- A step to a node whose key is not in `seen`. -/
def Fresh (s : Steps α κ) (seen : List κ) (x y : α) : Prop := y ∈ s.next x ∧ s.key y ∉ seen

/-- Steps stay in `P`, and there the key of a node is its own. -/
structure FaithfulOn (s : Steps α κ) (P : α → Prop) : Prop where
  closed : ∀ x, P x → ∀ y ∈ s.next x, P y
  key_inj : ∀ x y, P x → P y → s.key x = s.key y → x = y

theorem Fresh.mono {seen seen' : List κ} {x y : α} (h : s.Fresh seen' x y) (hs : seen ⊆ seen') :
    s.Fresh seen x y :=
  ⟨h.1, fun hy => h.2 (hs hy)⟩

theorem reflTransGen_fresh_nil {x y : α} :
    ReflTransGen (s.Fresh []) x y ↔ ReflTransGen s.Leads x y := by
  have h : s.Fresh [] = s.Leads := by
    funext a b
    simp [Fresh, Leads]
  rw [h]

theorem not_transGen_of_next_eq_nil {x y : α} (h : s.next x = []) : ¬ TransGen s.Leads x y := by
  intro hxy
  obtain ⟨z, hz, -⟩ := TransGen.head'_iff.1 hxy
  rw [Leads, h] at hz
  cases hz

theorem closed_of_reflTransGen {P : α → Prop} (hclosed : ∀ x, P x → ∀ y ∈ s.next x, P y)
    {seen : List κ} {x y : α} (hx : P x) (hxy : ReflTransGen (s.Fresh seen) x y) : P y := by
  induction hxy with
  | refl => exact hx
  | tail _ hstep ih => exact hclosed _ ih _ hstep.1

theorem FaithfulOn.of_reflTransGen {P : α → Prop} (h : s.FaithfulOn P) {seen : List κ} {x y : α}
    (hx : P x) (hxy : ReflTransGen (s.Fresh seen) x y) : P y :=
  closed_of_reflTransGen h.closed hx hxy

theorem FaithfulOn.congr {s' : Steps α κ} {P : α → Prop} (h : s.FaithfulOn P)
    (hkey : s'.key = s.key) (hnext : ∀ x y, y ∈ s'.next x ↔ y ∈ s.next x) : s'.FaithfulOn P where
  closed x hx y hy := h.closed x hx y ((hnext x y).1 hy)
  key_inj x y hx hy hxy := h.key_inj x y hx hy (hkey ▸ hxy)

/-- A way around `seen` that meets the key `k` is cut behind the last node with that key. -/
theorem cut_at_last {seen : List κ} (k : κ) {x y : α} (hxy : ReflTransGen (s.Fresh seen) x y) :
    (s.key x ≠ k ∧ ReflTransGen (s.Fresh (k :: seen)) x y) ∨
      ∃ z, ReflTransGen (s.Fresh seen) x z ∧ s.key z = k ∧
        (z = y ∨ ∃ w ∈ s.next z, s.key w ∉ k :: seen ∧ ReflTransGen (s.Fresh (k :: seen)) w y) := by
  induction hxy with
  | refl =>
    by_cases hk : s.key x = k
    · exact Or.inr ⟨x, .refl, hk, Or.inl rfl⟩
    · exact Or.inl ⟨hk, .refl⟩
  | @tail b c hxb hbc ih =>
    by_cases hk : s.key c = k
    · exact Or.inr ⟨c, hxb.tail hbc, hk, Or.inl rfl⟩
    · have hc : s.key c ∉ k :: seen := by
        intro h
        rcases List.mem_cons.1 h with h | h
        · exact hk h
        · exact hbc.2 h
      rcases ih with ⟨hx, hxb'⟩ | ⟨z, hxz, hz, rfl | ⟨w, hw, hwk, hwb⟩⟩
      · exact Or.inl ⟨hx, hxb'.tail ⟨hbc.1, hc⟩⟩
      · exact Or.inr ⟨z, hxz, hz, Or.inr ⟨c, hbc.1, hc, .refl⟩⟩
      · exact Or.inr ⟨z, hxz, hz, Or.inr ⟨w, hw, hwk, hwb.tail ⟨hbc.1, hc⟩⟩⟩

/-- What `x` leads to around `seen`, it leads to without coming back. -/
theorem FaithfulOn.fresh_cons_self {P : α → Prop} (h : s.FaithfulOn P) {seen : List κ} {x y : α}
    (hx : P x) (hxy : ReflTransGen (s.Fresh seen) x y) :
    ReflTransGen (s.Fresh (s.key x :: seen)) x y := by
  rcases cut_at_last (s.key x) hxy with ⟨hne, -⟩ | ⟨z, hxz, hz, hzy⟩
  · exact absurd rfl hne
  · obtain rfl : z = x := h.key_inj z x (h.of_reflTransGen hx hxz) hx hz
    rcases hzy with rfl | ⟨w, hw, hwk, hwy⟩
    · exact .refl
    · exact .head ⟨hw, hwk⟩ hwy

/-! ## First steps only -/

/-- The first step of each node. -/
def firstOnly (s : Steps α κ) : Steps α κ where
  next x := (s.next x).head?.toList
  key := s.key
  finite := by
    obtain ⟨keys, hkeys⟩ := s.finite
    exact ⟨keys, fun x y hy => hkeys x y (List.mem_of_mem_head? (Option.mem_toList.1 hy))⟩

@[simp] theorem key_firstOnly : s.firstOnly.key = s.key := rfl

theorem FaithfulOn.firstOnly {P : α → Prop} (h : s.FaithfulOn P) : s.firstOnly.FaithfulOn P where
  closed x hx y hy := h.closed x hx y (List.mem_of_mem_head? (Option.mem_toList.1 hy))
  key_inj := h.key_inj

variable [DecidableEq κ]

/-! ## Each key once -/

theorem key_notMem_of_mem_breadthFirst {seen : List κ} {queue : List α} {x : α}
    (hx : x ∈ s.breadthFirst seen queue) : s.key x ∉ seen := by
  fun_induction breadthFirst s seen queue with
  | case1 => cases hx
  | case2 seen y queue hy ih => exact ih hx
  | case3 seen y queue hy ih =>
    rcases List.mem_cons.1 hx with rfl | hx
    · exact hy
    · exact fun h => ih hx (List.mem_cons_of_mem _ h)

theorem nodup_map_key_breadthFirst (seen : List κ) (queue : List α) :
    ((s.breadthFirst seen queue).map s.key).Nodup := by
  fun_induction breadthFirst s seen queue with
  | case1 => exact List.nodup_nil
  | case2 seen y queue hy ih => exact ih
  | case3 seen y queue hy ih =>
    rw [List.map_cons, List.nodup_cons]
    refine ⟨fun h => ?_, ih⟩
    obtain ⟨x, hx, hkey⟩ := List.mem_map.1 h
    exact key_notMem_of_mem_breadthFirst hx (hkey ▸ List.mem_cons_self)

theorem nodup_reached (start : α) : (s.reached start).Nodup :=
  List.Nodup.of_map s.key (nodup_map_key_breadthFirst _ _)

theorem reached_of_next_eq_nil {start : α} (h : s.next start = []) : s.reached start = [] := by
  rw [reached, h, breadthFirst]

/-- Keys that a walk does not meet make no difference to it when they count as visited. -/
theorem breadthFirst_append_seen {seen extra : List κ} {queue : List α}
    (h : ∀ x ∈ s.breadthFirst seen queue, s.key x ∉ extra) :
    s.breadthFirst (seen ++ extra) queue = s.breadthFirst seen queue := by
  fun_induction breadthFirst s seen queue with
  | case1 => rw [breadthFirst]
  | case2 seen x queue hx ih =>
    rw [breadthFirst, dif_pos (List.mem_append_left extra hx)]
    exact ih h
  | case3 seen x queue hx ih =>
    obtain ⟨hhead, htail⟩ := List.forall_mem_cons.1 h
    rw [breadthFirst, dif_neg (by simp [hx, hhead])]
    exact congrArg (List.cons x) (ih htail)

/-- Where the only step leads to `y`, from which there is no way back, a walk is one from `y`. -/
theorem reached_of_next_eq_singleton {x y : α} (hnext : s.next x = [y]) (hy : s.key y ≠ s.key x)
    (hback : ∀ z ∈ s.reached y, s.key z ≠ s.key x) : s.reached x = y :: s.reached y := by
  have hfresh : s.key y ∉ [s.key x] := by simpa using hy
  have hnotMet : ∀ z ∈ s.breadthFirst [s.key y] (s.next y), s.key z ∉ [s.key x] := by
    simpa [reached] using hback
  rw [reached, hnext, breadthFirst, dif_neg hfresh]
  exact congrArg (List.cons y) (breadthFirst_append_seen hnotMet)

/-! ## Everything on the way -/

theorem exists_of_mem_breadthFirst {seen : List κ} {queue : List α} {y : α}
    (hy : y ∈ s.breadthFirst seen queue) :
    ∃ x ∈ queue, s.key x ∉ seen ∧ ReflTransGen (s.Fresh seen) x y := by
  fun_induction breadthFirst s seen queue with
  | case1 => cases hy
  | case2 seen x queue hx ih =>
    obtain ⟨z, hz, h⟩ := ih hy
    exact ⟨z, List.mem_cons_of_mem x hz, h⟩
  | case3 seen x queue hx ih =>
    rcases List.mem_cons.1 hy with rfl | hy
    · exact ⟨y, List.mem_cons_self, hx, .refl⟩
    · obtain ⟨z, hz, hzk, hzy⟩ := ih hy
      have hzy' : ReflTransGen (s.Fresh seen) z y :=
        hzy.lift id fun _ _ h => h.mono (List.subset_cons_self _ _)
      have hzk' : s.key z ∉ seen := fun h => hzk (List.mem_cons_of_mem _ h)
      rcases List.mem_append.1 hz with hz | hz
      · exact ⟨z, List.mem_cons_of_mem x hz, hzk', hzy'⟩
      · exact ⟨x, List.mem_cons_self, hx, hzy'.head ⟨hz, hzk'⟩⟩

/-- A walk stays among nodes that no step leaves. -/
theorem closed_of_mem_breadthFirst {P : α → Prop} (hclosed : ∀ x, P x → ∀ y ∈ s.next x, P y)
    {seen : List κ} {queue : List α} (hqueue : ∀ x ∈ queue, P x) {y : α}
    (hy : y ∈ s.breadthFirst seen queue) : P y := by
  obtain ⟨x, hx, -, hxy⟩ := exists_of_mem_breadthFirst hy
  exact closed_of_reflTransGen hclosed (hqueue x hx) hxy

theorem closed_of_mem_reached {P : α → Prop} (hclosed : ∀ x, P x → ∀ y ∈ s.next x, P y) {start : α}
    (hstart : P start) {y : α} (hy : y ∈ s.reached start) : P y :=
  closed_of_mem_breadthFirst hclosed (hclosed start hstart) hy

theorem mem_breadthFirst {P : α → Prop} (h : s.FaithfulOn P) {seen : List κ} {queue : List α}
    (hq : ∀ x ∈ queue, P x) {x y : α} (hx : x ∈ queue) (hxk : s.key x ∉ seen)
    (hxy : ReflTransGen (s.Fresh seen) x y) : y ∈ s.breadthFirst seen queue := by
  fun_induction breadthFirst s seen queue generalizing x with
  | case1 => cases hx
  | case2 seen z queue hz ih =>
    have hx' : x ∈ queue := by
      rcases List.mem_cons.1 hx with rfl | hx
      · exact absurd hz hxk
      · exact hx
    exact ih (fun x hx => hq x (List.mem_cons_of_mem z hx)) hx' hxk hxy
  | case3 seen z queue hz ih =>
    have hPz : P z := hq z List.mem_cons_self
    have hq' : ∀ x ∈ queue ++ s.next z, P x := by
      intro x hx
      rcases List.mem_append.1 hx with hx | hx
      · exact hq x (List.mem_cons_of_mem z hx)
      · exact h.closed z hPz x hx
    -- behind the last visit of `z` the way avoids `z`, and there the walk goes on
    rcases cut_at_last (s.key z) hxy with ⟨hne, hxy'⟩ | ⟨v, hxv, hv, rfl | ⟨w, hw, hwk, hwy⟩⟩
    · have hxq : x ∈ queue := by
        rcases List.mem_cons.1 hx with rfl | hx
        · exact absurd rfl hne
        · exact hx
      refine List.mem_cons_of_mem _ (ih hq' (List.mem_append_left _ hxq) ?_ hxy')
      intro hmem
      exact (List.mem_cons.1 hmem).elim hne hxk
    · have hvz : v = z := h.key_inj v z (h.of_reflTransGen (hq x hx) hxv) hPz hv
      exact hvz ▸ List.mem_cons_self
    · have hvz : v = z := h.key_inj v z (h.of_reflTransGen (hq x hx) hxv) hPz hv
      rw [hvz] at hw
      exact List.mem_cons_of_mem _ (ih hq' (List.mem_append_right _ hw) hwk hwy)

theorem mem_breadthFirst_iff {P : α → Prop} (h : s.FaithfulOn P) {seen : List κ} {queue : List α}
    (hq : ∀ x ∈ queue, P x) {y : α} :
    y ∈ s.breadthFirst seen queue ↔
      ∃ x ∈ queue, s.key x ∉ seen ∧ ReflTransGen (s.Fresh seen) x y := by
  constructor
  · exact exists_of_mem_breadthFirst
  · rintro ⟨x, hx, hxk, hxy⟩
    exact mem_breadthFirst h hq hx hxk hxy

theorem mem_cons_reached_iff {P : α → Prop} (h : s.FaithfulOn P) {x y : α}
    (hx : ∀ z ∈ s.next x, P z) :
    y ∈ x :: s.reached x ↔ ReflTransGen (s.Fresh [s.key x]) x y := by
  rw [List.mem_cons, reached, mem_breadthFirst_iff h hx, ReflTransGen.cases_head_iff]
  simp only [Fresh, and_assoc, eq_comm]

/-- **A walk from `start` visits exactly the other nodes that steps lead to.** -/
theorem mem_reached_iff {P : α → Prop} (h : s.FaithfulOn P) {start x : α}
    (hs : P start ∨ s.next start = []) :
    x ∈ s.reached start ↔ x ≠ start ∧ TransGen s.Leads start x := by
  rcases hs with hs | hnone
  · rw [reached, mem_breadthFirst_iff h (h.closed start hs)]
    constructor
    · rintro ⟨y, hy, hyk, hyx⟩
      have hyx' : ReflTransGen s.Leads y x := hyx.lift id fun _ _ h => h.1
      refine ⟨?_, TransGen.head' hy hyx'⟩
      -- the last node of the way is fresh, so it is not `start`
      rintro rfl
      rcases ReflTransGen.cases_tail hyx with rfl | ⟨b, -, hb⟩
      · exact hyk (List.mem_singleton_self _)
      · exact hb.2 (List.mem_singleton_self _)
    · rintro ⟨hne, hx⟩
      rcases (h.fresh_cons_self hs (reflTransGen_fresh_nil.2 hx.to_reflTransGen)).cases_head with
        rfl | ⟨w, ⟨hw, hwk⟩, hwx⟩
      · exact absurd rfl hne
      · exact ⟨w, hw, hwk, hwx⟩
  · rw [reached_of_next_eq_nil hnone]
    exact iff_of_false List.not_mem_nil fun hx => not_transGen_of_next_eq_nil hnone hx.2

/-- The chain of first nodes is what a walk along first steps visits. -/
theorem firstChain_eq_breadthFirst (seen : List κ) (x : α) :
    s.firstChain seen x = s.firstOnly.breadthFirst seen (s.firstOnly.next x) := by
  fun_induction firstChain s seen x with
  | case1 seen x hnone =>
    have hnext : s.firstOnly.next x = [] := by simp [Steps.firstOnly, hnone]
    rw [hnext, breadthFirst]
  | case2 seen x y hy hseen =>
    have hnext : s.firstOnly.next x = [y] := by simp [Steps.firstOnly, hy]
    rw [hnext, breadthFirst, key_firstOnly, dif_pos hseen, breadthFirst]
  | case3 seen x y hy hseen ih =>
    have hnext : s.firstOnly.next x = [y] := by simp [Steps.firstOnly, hy]
    rw [hnext, breadthFirst, key_firstOnly, dif_neg hseen, List.nil_append]
    exact congrArg (List.cons y) ih

/-! ## Two walks -/

section Pairs

variable {s' : Steps α κ} {P : α → Prop}

/-- The order of the steps has no influence on which nodes a walk visits. -/
theorem perm_reached (h : s.FaithfulOn P) (hkey : s'.key = s.key)
    (hnext : ∀ x y, y ∈ s'.next x ↔ y ∈ s.next x) {start : α} (hstart : ∀ x ∈ s.next start, P x) :
    (s'.reached start).Perm (s.reached start) := by
  refine (List.perm_ext_iff_of_nodup (nodup_reached start) (nodup_reached start)).2 fun x => ?_
  have hfresh : ∀ seen, s'.Fresh seen = s.Fresh seen := by
    intro seen
    funext a b
    exact propext (and_congr (hnext a b) (by rw [hkey]))
  rw [reached, reached, mem_breadthFirst_iff h hstart,
    mem_breadthFirst_iff (h.congr hkey hnext) fun x hx => hstart x ((hnext start x).1 hx)]
  simp only [hnext, hkey, hfresh]

theorem firstChain_eq (seen : List κ) (x : α) : s.firstChain seen x =
    match (s.next x).head? with
    | none => []
    | some y => if s.key y ∈ seen then [] else y :: s.firstChain (s.key y :: seen) y := by
  rw [firstChain]
  split
  · rename_i hnone
    rw [hnone]
  · rename_i y hy
    simp only [hy, dite_eq_ite]

/-- On the nodes of `P`, which no step leaves, both have the same steps, and the same keys. -/
structure AgreesOn (s s' : Steps α κ) (P : α → Prop) : Prop where
  key_eq : s'.key = s.key
  next_eq : ∀ x, P x → s'.next x = s.next x
  closed : ∀ x, P x → ∀ y ∈ s.next x, P y

namespace AgreesOn

theorem breadthFirst_eq (h : s.AgreesOn s' P) {seen : List κ} {queue : List α}
    (hqueue : ∀ x ∈ queue, P x) : s'.breadthFirst seen queue = s.breadthFirst seen queue := by
  fun_induction breadthFirst s seen queue with
  | case1 => rw [breadthFirst]
  | case2 seen x queue hx ih =>
    rw [breadthFirst, dif_pos (by rwa [h.key_eq])]
    exact ih fun y hy => hqueue y (List.mem_cons_of_mem x hy)
  | case3 seen x queue hx ih =>
    have hPx : P x := hqueue x List.mem_cons_self
    rw [breadthFirst, dif_neg (by rwa [h.key_eq]), h.next_eq x hPx, h.key_eq]
    refine congrArg (List.cons x) (ih fun y hy => ?_)
    rcases List.mem_append.1 hy with hy | hy
    · exact hqueue y (List.mem_cons_of_mem x hy)
    · exact h.closed x hPx y hy

theorem reached_eq (h : s.AgreesOn s' P) {start : α} (hstart : P start) :
    s'.reached start = s.reached start := by
  rw [reached, reached, h.key_eq, h.next_eq start hstart]
  exact h.breadthFirst_eq (h.closed start hstart)

theorem firstChain_eq (h : s.AgreesOn s' P) {seen : List κ} {x : α} (hx : P x) :
    s'.firstChain seen x = s.firstChain seen x := by
  fun_induction firstChain s seen x with
  | case1 seen x hnone =>
    rw [Steps.firstChain_eq, h.next_eq x hx, hnone]
  | case2 seen x y hy hseen =>
    rw [Steps.firstChain_eq, h.next_eq x hx, hy, h.key_eq]
    exact if_pos hseen
  | case3 seen x y hy hseen ih =>
    rw [Steps.firstChain_eq, h.next_eq x hx, hy, h.key_eq]
    refine (if_neg hseen).trans (congrArg (List.cons y) (ih ?_))
    exact h.closed x hx y (List.mem_of_mem_head? hy)

end AgreesOn

end Pairs

end TaxonomyPress.Steps
