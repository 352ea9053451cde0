import TaxonomyPress.Proofs.StoreHistory
import Mathlib.Data.List.Nodup
import Mathlib.Data.List.Perm.Basic

/-!
# Facts inserted among others

* `Store.IsExtension` : but for some facts, which one store has besides, two stores have the same facts
  in the same order;
* `IsExtension.filterMap_objects` : what those facts do not bear on reads the same in both;
* `IsExtension.matching` : so does a pattern that none of them agrees with;
* `IsExtension.mem_objects`, `IsExtension.hasSubject` : new values and subjects come from them;
* `Store.IsInsertion` : the facts besides are new, so the others do not move;
* `Store.isExtension_ofList`, `Store.isInsertion_ofList` : loading facts among those of a store extends
  it; if they are not there yet, it is an insertion.
-/

namespace TaxonomyPress.Store

/-- The facts of `after` are those of `before` and `extra`, and but for `extra` they are in the same
order. A fact of `extra` that `before` has too may have moved. -/
structure IsExtension (before after : Store) (extra : List Triple) : Prop where
  mem_triples : ∀ {t}, t ∈ after.triples ↔ t ∈ before.triples ∨ t ∈ extra
  filter_eq : after.triples.filter (· ∉ extra) = before.triples.filter (· ∉ extra)

namespace IsExtension

variable {before after : Store} {extra : List Triple}

/-- A reading that drops the facts of `extra` does not change. -/
theorem filterMap_triples {β : Type} (h : before.IsExtension after extra) {f : Triple → Option β}
    (hextra : ∀ t ∈ extra, f t = none) : after.triples.filterMap f = before.triples.filterMap f := by
  have hdrop : ∀ ts : List Triple, (ts.filter (· ∉ extra)).filterMap f = ts.filterMap f := by
    intro ts
    rw [List.filterMap_filter]
    refine List.filterMap_congr fun t _ => ?_
    by_cases ht : t ∈ extra
    · simp [ht, hextra t ht]
    · simp [ht]
  rw [← hdrop after.triples, h.filter_eq, hdrop]

theorem matching (h : before.IsExtension after extra) {pattern : Pattern}
    (hextra : ∀ t ∈ extra, ¬ pattern.accepts t) :
    after.matching pattern = before.matching pattern := by
  rw [matching_eq_filter, matching_eq_filter, ← List.filterMap_eq_filter]
  exact h.filterMap_triples fun t ht => Option.guard_eq_none_iff.2 (by simpa using hextra t ht)

theorem filterMap_objects {β : Type} (h : before.IsExtension after extra) {f : Term → Option β}
    {s : Term} {p : String}
    (hextra : ∀ t ∈ extra, t.subject = s → t.predicate = p → f t.object = none) :
    (after.objects s p).filterMap f = (before.objects s p).filterMap f := by
  unfold objects
  rw [matching_eq_filter, matching_eq_filter, List.filterMap_map, List.filterMap_map,
    List.filterMap_filter, List.filterMap_filter]
  apply h.filterMap_triples
  intro t ht
  split
  · rename_i haccepts
    simp only [Pattern.accepts, agrees, Bool.and_true, Bool.and_eq_true,
      decide_eq_true_eq] at haccepts
    exact hextra t ht haccepts.1 haccepts.2
  · rfl

theorem objects (h : before.IsExtension after extra) {s : Term} {p : String}
    (hextra : ∀ t ∈ extra, t.subject = s → t.predicate ≠ p) :
    after.objects s p = before.objects s p := by
  have hsome := h.filterMap_objects (f := some) fun t ht hs hp => absurd hp (hextra t ht hs)
  rw [List.filterMap_some, List.filterMap_some] at hsome
  exact hsome

theorem mem_objects (h : before.IsExtension after extra) {s o : Term} {p : String} :
    o ∈ after.objects s p ↔ o ∈ before.objects s p ∨ ⟨s, p, o⟩ ∈ extra := by
  rw [Store.mem_objects, Store.mem_objects, h.mem_triples]

theorem hasSubject (h : before.IsExtension after extra) {s : Term}
    (hextra : ∀ t ∈ extra, t.subject = s → before.hasSubject s) :
    after.hasSubject s = before.hasSubject s := by
  rw [Bool.eq_iff_iff, hasSubject_iff, hasSubject_iff]
  constructor
  · rintro ⟨t, ht, hs⟩
    rcases h.mem_triples.1 ht with ht | ht
    · exact ⟨t, ht, hs⟩
    · exact hasSubject_iff.1 (hextra t ht hs)
  · rintro ⟨t, ht, hs⟩
    exact ⟨t, h.mem_triples.2 (Or.inl ht), hs⟩

end IsExtension

/-- The facts of `after` are those of `before` in their order, with the facts `new` at any places
among them. -/
structure IsInsertion (before after : Store) (new : List Triple) : Prop where
  sublist : before.triples.Sublist after.triples
  perm : after.triples.Perm (before.triples ++ new)

theorem filter_eq_of_sublist_of_perm {before after new : List Triple} (hsublist : before.Sublist after)
    (hperm : after.Perm (before ++ new)) :
    after.filter (· ∉ new) = before.filter (· ∉ new) := by
  have hnone : new.filter (· ∉ new) = [] := List.filter_eq_nil_iff.2 fun t ht => by simpa using ht
  have hlength := (hperm.filter (· ∉ new)).length_eq
  rw [List.filter_append, hnone, List.append_nil] at hlength
  exact ((hsublist.filter _).eq_of_length hlength.symm).symm

theorem IsInsertion.isExtension {before after : Store} {new : List Triple}
    (h : before.IsInsertion after new) : before.IsExtension after new where
  mem_triples := by
    intro t
    rw [h.perm.mem_iff, List.mem_append]
  filter_eq := filter_eq_of_sublist_of_perm h.sublist h.perm

/-! ## Insertion anywhere -/

/-- A list that has the facts of the store in their order, and others at any places, is loaded to an
extension by those. -/
theorem isExtension_ofList {store : Store} {facts extra : List Triple}
    (hsublist : store.triples.Sublist facts) (hperm : facts.Perm (store.triples ++ extra)) :
    store.IsExtension (ofList facts) extra where
  mem_triples := by
    intro t
    rw [mem_triples_ofList, hperm.mem_iff, List.mem_append]
  filter_eq := by
    rw [triples_ofList, filter_distinct, filter_eq_of_sublist_of_perm hsublist hperm,
      distinct_of_nodup (store.nodup.filter _)]

/-- Facts that are not there yet are inserted, each once. -/
theorem isInsertion_ofList {store : Store} {facts new : List Triple}
    (hsublist : store.triples.Sublist facts) (hperm : facts.Perm (store.triples ++ new))
    (hnew : ∀ t ∈ new, t ∉ store.triples) : store.IsInsertion (ofList facts) (distinct new) := by
  refine ⟨?_, ?_⟩
  · have honce : ∀ t ∈ store.triples, facts.count t ≤ 1 := by
      intro t ht
      have hzero : new.count t = 0 := List.count_eq_zero.2 fun hmem => hnew t hmem ht
      have hone : store.triples.count t = 1 := List.count_eq_one_of_mem store.nodup ht
      have hcount : facts.count t = 1 := by rw [hperm.count_eq, List.count_append, hone, hzero]
      exact Nat.le_of_eq hcount
    rw [triples_ofList]
    exact sublist_distinctFrom hsublist (fun _ _ => List.not_mem_nil) honce
  · have hdisjoint : (store.triples ++ distinct new).Nodup :=
      List.nodup_append.2 ⟨store.nodup, nodup_distinct new, fun t ht u hu htu =>
        hnew u (mem_distinct.1 hu) (htu ▸ ht)⟩
    refine (List.perm_ext_iff_of_nodup (ofList facts).nodup hdisjoint).2 fun t => ?_
    rw [mem_triples_ofList, hperm.mem_iff, List.mem_append, List.mem_append, mem_distinct]

end TaxonomyPress.Store
