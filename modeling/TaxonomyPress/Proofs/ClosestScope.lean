import TaxonomyPress.Proofs.Closeness
import TaxonomyPress.Proofs.Noninterference
import TaxonomyPress.Proofs.Traversal

/-!
# The closest scope

* `closest_eq_some_iff` : which entry one pass over ranked texts keeps;
* `Taxonomy.Annotates`, `Taxonomy.Applies` : which values of a predicate count, said with the facts of
  the store;
* `Taxonomy.ClosestScoped`, `Taxonomy.LastUnscoped` : the last text of the first scope that has one, and
  the last literal where no scope has one;
* `Taxonomy.resolveText_eq_none_iff`, `Taxonomy.resolveText_eq_some_iff` : these are the texts found;
* `Taxonomy.distance_le_of_idxOf_le` : what is earlier among the scopes of a class is no farther away;
* `Taxonomy.closest_scope_wins` : the result for a property, under a class or under its own domains.
-/

namespace TaxonomyPress

/-! ## One pass over ranked texts -/

section Closest

variable {ranked before after : List (Nat × String)} {entry e : Nat × String}

theorem closest_concat (ranked : List (Nat × String)) (entry : Nat × String) :
    closest (ranked ++ [entry]) = match closest ranked with
      | none => some entry
      | some best => if entry.1 ≤ best.1 then some entry else some best :=
  List.foldl_concat _ _ _ _

theorem closest_eq_none_iff : closest ranked = none ↔ ranked = [] := by
  induction ranked using List.reverseRecOn with
  | nil => simp [closest]
  | append_singleton ranked entry _ =>
    rw [closest_concat]
    split
    · simp
    · split_ifs <;> simp

/-- The entry kept is least, and less than all that follow it. -/
theorem exists_of_closest (h : closest ranked = some e) : ∃ before after,
    ranked = before ++ e :: after ∧ (∀ x ∈ before, e.1 ≤ x.1) ∧ ∀ x ∈ after, e.1 < x.1 := by
  induction ranked using List.reverseRecOn generalizing e with
  | nil => cases h
  | append_singleton ranked entry ih =>
    rw [closest_concat] at h
    cases hbest : closest ranked with
    | none =>
      rw [hbest] at h
      obtain rfl : entry = e := Option.some.inj h
      obtain rfl : ranked = [] := closest_eq_none_iff.1 hbest
      exact ⟨[], [], rfl, by simp, by simp⟩
    | some best =>
      obtain ⟨before, after, hranked, hbefore, hafter⟩ := ih hbest
      simp only [hbest] at h
      split_ifs at h with hle
      · obtain rfl : entry = e := Option.some.inj h
        refine ⟨ranked, [], rfl, fun x hx => ?_, by simp⟩
        rw [hranked, List.mem_append, List.mem_cons] at hx
        rcases hx with hx | rfl | hx
        · exact hle.trans (hbefore x hx)
        · exact hle
        · exact hle.trans (hafter x hx).le
      · obtain rfl : best = e := Option.some.inj h
        refine ⟨before, after ++ [entry], by simp [hranked], hbefore, fun x hx => ?_⟩
        rcases List.mem_append.1 hx with hx | hx
        · exact hafter x hx
        · obtain rfl := List.mem_singleton.1 hx
          omega

theorem closest_append_cons (hbefore : ∀ x ∈ before, e.1 ≤ x.1) (hafter : ∀ x ∈ after, e.1 < x.1) :
    closest (before ++ e :: after) = some e := by
  induction after using List.reverseRecOn with
  | nil =>
    rw [closest_concat]
    cases hbest : closest before with
    | none => rfl
    | some best =>
      obtain ⟨_, _, rfl, -, -⟩ := exists_of_closest hbest
      exact if_pos (hbefore best (by simp))
  | append_singleton after entry ih =>
    have hkept : closest (before ++ e :: after) = some e :=
      ih fun x hx => hafter x (List.mem_append_left _ hx)
    have hlt : e.1 < entry.1 := hafter entry (by simp)
    rw [show before ++ e :: (after ++ [entry]) = (before ++ e :: after) ++ [entry] by simp,
      closest_concat, hkept]
    exact if_neg (by omega)

/-- Of ranked texts the pass keeps the last of the least. -/
theorem closest_eq_some_iff : closest ranked = some e ↔ ∃ before after,
    ranked = before ++ e :: after ∧ (∀ x ∈ before, e.1 ≤ x.1) ∧ ∀ x ∈ after, e.1 < x.1 := by
  constructor
  · exact exists_of_closest
  · rintro ⟨before, after, rfl, hbefore, hafter⟩
    exact closest_append_cons hbefore hafter

/-- The same, told by the values that have a rank. -/
theorem closest_filterMap_eq_some_iff {α : Type} {rank : α → Option (Nat × String)}
    {values : List α} : closest (values.filterMap rank) = some e ↔ ∃ before value after,
      values = before ++ value :: after ∧ rank value = some e ∧
        (∀ v ∈ before, ∀ x, rank v = some x → e.1 ≤ x.1) ∧
        ∀ v ∈ after, ∀ x, rank v = some x → e.1 < x.1 := by
  rw [closest_eq_some_iff]
  constructor
  · rintro ⟨_, _, hsplit, hbefore, hafter⟩
    obtain ⟨before, value, after, rfl, hvalue, rfl, rfl⟩ := filterMap_eq_append_cons_iff.1 hsplit
    rw [List.forall_mem_filterMap] at hbefore hafter
    exact ⟨before, value, after, rfl, hvalue, hbefore, hafter⟩
  · rintro ⟨before, value, after, rfl, hvalue, hbefore, hafter⟩
    refine ⟨before.filterMap rank, after.filterMap rank, ?_, ?_, ?_⟩
    · exact filterMap_eq_append_cons_iff.2 ⟨before, value, after, rfl, hvalue, rfl, rfl⟩
    · exact List.forall_mem_filterMap.2 hbefore
    · exact List.forall_mem_filterMap.2 hafter

end Closest

namespace Taxonomy

open Relation

variable {T : Taxonomy} {scopes : List String} {values : List Term} {value : Term}
  {predicate scope text : String} {l : Literal}

/-! ## Values that count -/

/-- The node `value` describes a text with a scope, by its first scope and its first text. -/
@[mk_iff]
structure Annotates (T : Taxonomy) (value : Term) (scope : String) (l : Literal) : Prop where
  isResource : value.isResource
  scope : (T.store.objects value Pot.scope).head?.map T.scopeIdentifier = some scope
  text : (T.store.objects value Rdf.value).findSome? Term.asLiteral = some l

/-- A value counts under `scopes` if it is a literal, or describes a text with one of them. -/
def Applies (T : Taxonomy) (scopes : List String) (value : Term) : Prop :=
  value.isResource = false ∨ ∃ scope ∈ scopes, ∃ l, T.Annotates value scope l

/-- How the values that count are ranked: texts with a scope as their scope is, and literals behind all
scopes. -/
inductive Ranks (T : Taxonomy) (scopes : List String) : Term → Nat → Literal → Prop where
  | anywhere (l : Literal) : Ranks T scopes (.literal l) scopes.length l
  | within {value : Term} {scope : String} {l : Literal} (annotates : T.Annotates value scope l)
      (mem : scope ∈ scopes) : Ranks T scopes value (scopes.idxOf scope) l

theorem applies_iff : T.Applies scopes value ↔ ∃ rank l, T.Ranks scopes value rank l := by
  constructor
  · rintro (hliteral | ⟨scope, hmem, l, hannotates⟩)
    · cases value with
      | literal l => exact ⟨_, l, .anywhere l⟩
      | iri i => cases hliteral
      | blank label => cases hliteral
    · exact ⟨_, l, .within hannotates hmem⟩
  · rintro ⟨rank, l, hrank⟩
    cases hrank with
    | anywhere => exact Or.inl rfl
    | within hannotates hmem => exact Or.inr ⟨_, hmem, l, hannotates⟩

theorem structuredAnnotation_eq_some_iff {a : Annotation} :
    T.structuredAnnotation value = some a ↔ ∃ scope l,
      (T.store.objects value Pot.scope).head?.map T.scopeIdentifier = some scope ∧
        (T.store.objects value Rdf.value).findSome? Term.asLiteral = some l ∧
        a = ⟨some scope, l⟩ := by
  unfold structuredAnnotation
  cases (T.store.objects value Pot.scope).head? with
  | none => simp
  | some o =>
    cases (T.store.objects value Rdf.value).findSome? Term.asLiteral with
    | none => simp
    | some l => simp [eq_comm]

theorem annotationOf_eq_some_iff {a : Annotation} : T.annotationOf value = some a ↔
    (∃ l, value = .literal l ∧ a = ⟨none, l⟩) ∨
      ∃ scope l, T.Annotates value scope l ∧ a = ⟨some scope, l⟩ := by
  cases value with
  | literal l => simp [annotationOf, annotates_iff, Term.isResource, eq_comm]
  | iri i => simp [annotationOf, structuredAnnotation_eq_some_iff, annotates_iff, Term.isResource,
      and_assoc]
  | blank label => simp [annotationOf, structuredAnnotation_eq_some_iff, annotates_iff,
      Term.isResource, and_assoc]

theorem scopeRank_eq_some_iff {rank : Nat} :
    scopeRank scopes (some scope) = some rank ↔ scope ∈ scopes ∧ rank = scopes.idxOf scope := by
  rw [scopeRank, List.idxOf_eq_getD_idxOf?]
  cases hrank : scopes.idxOf? scope with
  | none => simp [List.idxOf?_eq_none_iff.1 hrank]
  | some k =>
    have hmem : scope ∈ scopes := by
      by_contra hnot
      rw [List.idxOf?_eq_none_iff.2 hnot] at hrank
      cases hrank
    simp [hmem, eq_comm]

theorem rankedText_eq_some_iff {rank : Nat} :
    T.rankedText scopes value = some (rank, l) ↔ T.Ranks scopes value rank l := by
  simp only [rankedText, Option.bind_eq_some_iff, annotationOf_eq_some_iff, Option.map_eq_some_iff,
    Prod.mk.injEq]
  constructor
  · rintro ⟨a, ⟨l, rfl, rfl⟩ | ⟨scope, l, hannotates, rfl⟩, rank, hrank, rfl, rfl⟩
    · obtain rfl : scopes.length = rank := Option.some.inj hrank
      exact .anywhere l
    · obtain ⟨hmem, rfl⟩ := scopeRank_eq_some_iff.1 hrank
      exact .within hannotates hmem
  · intro h
    cases h with
    | anywhere => exact ⟨_, Or.inl ⟨l, rfl, rfl⟩, _, rfl, rfl, rfl⟩
    | @within _ scope _ hannotates hmem =>
      have hrank := scopeRank_eq_some_iff.2 ⟨hmem, rfl⟩
      exact ⟨_, Or.inr ⟨scope, l, hannotates, rfl⟩, _, hrank, rfl, rfl⟩

/-! ## The text found -/

/-- Of the scopes that a text in `values` has, `scope` comes first in `scopes`, and `text` is its last
one. -/
structure ClosestScoped (T : Taxonomy) (scopes : List String) (values : List Term)
    (scope text : String) : Prop where
  mem : scope ∈ scopes
  first : ∀ value ∈ values, ∀ other l, T.Annotates value other l → other ∈ scopes →
    scopes.idxOf scope ≤ scopes.idxOf other
  last : ∃ before value after l, values = before ++ value :: after ∧ T.Annotates value scope l ∧
    l.text = text ∧ ∀ v ∈ after, ∀ l', ¬ T.Annotates v scope l'

/-- No text in `values` has one of the scopes, and `text` is the last one without a scope. -/
structure LastUnscoped (T : Taxonomy) (scopes : List String) (values : List Term) (text : String) :
    Prop where
  unscoped : ∀ value ∈ values, ∀ scope l, T.Annotates value scope l → scope ∉ scopes
  last : ∃ before l after, values = before ++ .literal l :: after ∧ l.text = text ∧
    ∀ v ∈ after, v.isResource

variable {p : Node}

theorem resolveText_eq_closest : T.resolveText p predicate scopes =
    (closest ((T.store.objects p.term predicate).filterMap fun value =>
      (T.rankedText scopes value).map fun e => (e.1, e.2.text))).map (·.2) := by
  rw [resolveText, applicable_eq_filterMap, List.map_filterMap]

/-- No text is found just when no value counts. -/
theorem resolveText_eq_none_iff : T.resolveText p predicate scopes = none ↔
    ∀ value ∈ T.store.objects p.term predicate, ¬ T.Applies scopes value := by
  rw [resolveText_eq_closest, Option.map_eq_none_iff, closest_eq_none_iff, List.filterMap_eq_nil_iff]
  refine forall₂_congr fun value _ => ?_
  rw [Option.map_eq_none_iff, Option.eq_none_iff_forall_ne_some, applies_iff]
  simp only [ne_eq, Prod.forall, rankedText_eq_some_iff, not_exists]

/-- The text found is the last of those with the least rank. -/
theorem resolveText_eq_some_iff_ranks : T.resolveText p predicate scopes = some text ↔
    ∃ before value after rank l, T.store.objects p.term predicate = before ++ value :: after ∧
      T.Ranks scopes value rank l ∧ l.text = text ∧
      (∀ v ∈ before, ∀ other l', T.Ranks scopes v other l' → rank ≤ other) ∧
      ∀ v ∈ after, ∀ other l', T.Ranks scopes v other l' → rank < other := by
  have hranks : ∀ v (e : Nat × String),
      (T.rankedText scopes v).map (fun e => (e.1, e.2.text)) = some e ↔
        ∃ l, T.Ranks scopes v e.1 l ∧ l.text = e.2 := by
    rintro v ⟨rank, text⟩
    simp only [Option.map_eq_some_iff, Prod.exists, rankedText_eq_some_iff, Prod.mk.injEq]
    constructor
    · rintro ⟨rank, l, h, rfl, rfl⟩
      exact ⟨l, h, rfl⟩
    · rintro ⟨l, h, rfl⟩
      exact ⟨rank, l, h, rfl, rfl⟩
  rw [resolveText_eq_closest, Option.map_eq_some_iff]
  simp only [closest_filterMap_eq_some_iff, hranks]
  constructor
  · rintro ⟨e, ⟨before, value, after, hvalues, ⟨l, hl, hetext⟩, hbefore, hafter⟩, rfl⟩
    exact ⟨before, value, after, e.1, l, hvalues, hl, hetext,
      fun v hv other l' h => hbefore v hv (other, l'.text) ⟨l', h, rfl⟩,
      fun v hv other l' h => hafter v hv (other, l'.text) ⟨l', h, rfl⟩⟩
  · rintro ⟨before, value, after, rank, l, hvalues, hl, rfl, hbefore, hafter⟩
    refine ⟨(rank, l.text), ⟨before, value, after, hvalues, ⟨l, hl, rfl⟩, ?_, ?_⟩, rfl⟩
    · rintro v hv x ⟨l', h, -⟩
      exact hbefore v hv x.1 l' h
    · rintro v hv x ⟨l', h, -⟩
      exact hafter v hv x.1 l' h

theorem Ranks.unique {rank rank' : Nat} {l' : Literal} (h : T.Ranks scopes value rank l)
    (h' : T.Ranks scopes value rank' l') : rank = rank' :=
  congrArg Prod.fst (Option.some.inj
    ((rankedText_eq_some_iff.2 h).symm.trans (rankedText_eq_some_iff.2 h')))

/-- A text of the closest scope is found. -/
theorem ClosestScoped.resolveText_eq
    (h : T.ClosestScoped scopes (T.store.objects p.term predicate) scope text) :
    T.resolveText p predicate scopes = some text := by
  obtain ⟨before, value, after, l, hvalues, hvalue, hl, hafter⟩ := h.last
  have hle : ∀ v ∈ T.store.objects p.term predicate, ∀ other l', T.Ranks scopes v other l' →
      scopes.idxOf scope ≤ other := by
    intro v hv other l' hrank
    cases hrank with
    | anywhere => exact List.idxOf_le_length
    | within hannotates hmem => exact h.first v hv _ _ hannotates hmem
  rw [hvalues] at hle
  refine resolveText_eq_some_iff_ranks.2 ⟨before, value, after, scopes.idxOf scope, l, hvalues,
    .within hvalue h.mem, hl, fun v hv => hle v (by simp [hv]), fun v hv other l' hrank => ?_⟩
  refine lt_of_le_of_ne (hle v (by simp [hv]) other l' hrank) ?_
  cases hrank with
  | anywhere => exact (List.idxOf_lt_length_iff.2 h.mem).ne
  | @within _ other _ hannotates hmem =>
    intro heq
    obtain rfl : scope = other := (List.idxOf_inj h.mem).1 heq
    exact hafter v hv l' hannotates

/-- Where no scope has a text, the last literal is found. -/
theorem LastUnscoped.resolveText_eq
    (h : T.LastUnscoped scopes (T.store.objects p.term predicate) text) :
    T.resolveText p predicate scopes = some text := by
  obtain ⟨before, l, after, hvalues, hl, hafter⟩ := h.last
  have heq : ∀ v ∈ T.store.objects p.term predicate, ∀ other l', T.Ranks scopes v other l' →
      v = .literal l' ∧ other = scopes.length := by
    intro v hv other l' hrank
    cases hrank with
    | anywhere => exact ⟨rfl, rfl⟩
    | within hannotates hmem => exact absurd hmem (h.unscoped v hv _ _ hannotates)
  rw [hvalues] at heq
  refine resolveText_eq_some_iff_ranks.2 ⟨before, .literal l, after, scopes.length, l, hvalues,
    .anywhere l, hl, fun v hv other l' hrank => ?_, fun v hv other l' hrank => ?_⟩
  · exact (heq v (by simp [hv]) other l' hrank).2.ge
  · obtain ⟨rfl, -⟩ := heq v (by simp [hv]) other l' hrank
    cases hafter _ hv

/-- **The text found** is that of the closest scope that has one, or else the last literal. -/
theorem resolveText_eq_some_iff : T.resolveText p predicate scopes = some text ↔
    (∃ scope, T.ClosestScoped scopes (T.store.objects p.term predicate) scope text) ∨
      T.LastUnscoped scopes (T.store.objects p.term predicate) text := by
  constructor
  · intro h
    obtain ⟨before, value, after, rank, l, hvalues, hrank, hl, hbefore, hafter⟩ :=
      resolveText_eq_some_iff_ranks.1 h
    have hle : ∀ v ∈ T.store.objects p.term predicate, ∀ other l', T.Ranks scopes v other l' →
        rank ≤ other := by
      intro v hv other l' hother
      rw [hvalues, List.mem_append, List.mem_cons] at hv
      rcases hv with hv | rfl | hv
      · exact hbefore v hv other l' hother
      · exact (hrank.unique hother).le
      · exact (hafter v hv other l' hother).le
    cases hrank with
    | anywhere =>
      refine Or.inr ⟨fun v hv scope l' hannotates hmem => ?_, before, l, after, hvalues, hl,
        fun v hv => ?_⟩
      · have hlt : scopes.idxOf scope < scopes.length := List.idxOf_lt_length_iff.2 hmem
        exact hlt.not_ge (hle v hv _ l' (.within hannotates hmem))
      · cases v with
        | literal l' => exact absurd (hafter _ hv _ l' (.anywhere l')) (lt_irrefl _)
        | iri i => rfl
        | blank label => rfl
    | @within _ scope _ hannotates hmem =>
      refine Or.inl ⟨scope, hmem, fun v hv other l' hother hothermem => ?_, before, value, after, l,
        hvalues, hannotates, hl, fun v hv l' hsame => ?_⟩
      · exact hle v hv _ l' (.within hother hothermem)
      · exact lt_irrefl _ (hafter v hv _ l' (.within hsame hmem))
  · rintro (⟨scope, h⟩ | h)
    · exact h.resolveText_eq
    · exact h.resolveText_eq

/-! ## Scopes by distance -/

/-- A class has every scope once. -/
theorem nodup_classScopes (hT : T.store.Unambiguous) (c : Node) : (T.classScopes c).Nodup := by
  rcases identifiable_or_root hT c with hc | hroot
  · have hnodes : ∀ m ∈ c :: T.ancestors c, m.kind = c.kind ∧ m.term.Identifiable := by
      intro m hm
      rcases List.mem_cons.1 hm with rfl | hm
      · exact ⟨rfl, hc⟩
      · have habove : T.Above c m := ((mem_ancestors_iff hT).1 hm).2
        obtain ⟨p, -, hp⟩ := TransGen.tail'_iff.1 habove
        exact ⟨habove.kind_eq, hp.identifiable_right hT⟩
    have hself : c ∉ T.ancestors c := fun hmem => ((mem_ancestors_iff hT).1 hmem).1 rfl
    refine List.Nodup.map_on ?_ (List.nodup_cons.2 ⟨hself, Steps.nodup_reached c⟩)
    rintro ⟨kind, m⟩ hm ⟨kind', n⟩ hn heq
    obtain ⟨rfl, hm⟩ := hnodes _ hm
    obtain ⟨rfl, hn⟩ := hnodes _ hn
    exact congrArg (Node.mk c.kind) ((Term.identifier_inj hm hn).1 heq)
  · rw [classScopes, ancestors_of_root hroot]
    exact List.nodup_singleton _

/-- What is earlier among the scopes of a class is no farther away. -/
theorem distance_le_of_idxOf_le (hT : T.store.Unambiguous) {c m n : Node}
    (hm : m ∈ c :: T.ancestors c) (hn : n ∈ c :: T.ancestors c)
    (hle : (T.classScopes c).idxOf m.identifier ≤ (T.classScopes c).idxOf n.identifier) :
    distance T.RealParent c m ≤ distance T.RealParent c n := by
  have hsorted : (c :: T.ancestors c).Pairwise fun m n =>
      distance T.RealParent c m ≤ distance T.RealParent c n := by
    refine List.pairwise_cons.2 ⟨fun n _ => ?_, pairwise_ancestors hT c⟩
    rw [distance_self]
    exact Nat.zero_le _
  have hindex : ∀ i (hi : i < (c :: T.ancestors c).length),
      (T.classScopes c).idxOf (c :: T.ancestors c)[i].identifier = i := by
    intro i hi
    have hlt : i < (T.classScopes c).length := by rwa [classScopes, List.length_map]
    have hget : (T.classScopes c)[i] = (c :: T.ancestors c)[i].identifier := List.getElem_map _
    rw [← hget]
    exact (nodup_classScopes hT c).idxOf_getElem i hlt
  obtain ⟨i, hi, rfl⟩ := List.getElem_of_mem hm
  obtain ⟨j, hj, rfl⟩ := List.getElem_of_mem hn
  rw [hindex, hindex] at hle
  rcases hle.eq_or_lt with rfl | hlt
  · exact le_rfl
  · exact List.pairwise_iff_getElem.1 hsorted i j hi hj hlt

/-- No text with a scope of the class has it nearer than the text found. -/
theorem ClosestScoped.distance_le (hT : T.store.Unambiguous) {c m n : Node}
    (h : T.ClosestScoped (T.classScopes c) values scope text) (hm : m ∈ c :: T.ancestors c)
    (hscope : m.identifier = scope) (hn : n ∈ c :: T.ancestors c) (hvalue : value ∈ values)
    (hannotates : T.Annotates value n.identifier l) :
    distance T.RealParent c m ≤ distance T.RealParent c n := by
  subst hscope
  exact distance_le_of_idxOf_le hT hm hn
    (h.first value hvalue _ l hannotates (List.mem_map_of_mem hn))

/-- **The closest scope wins.** A property has no single value of a predicate just when nothing counts;
otherwise it has the last text of the first scope that has one, or, where no scope has one, the last
literal. Under a class no text has a scope at a smaller distance. -/
theorem closest_scope_wins (T : Taxonomy) (hT : T.store.Unambiguous) (p : Node)
    (predicate : String) (selected : Option Node) :
    (T.resolveText p predicate (T.scopes p selected) = none ↔
      ∀ value ∈ T.store.objects p.term predicate, ¬ T.Applies (T.scopes p selected) value) ∧
      (∀ text, T.resolveText p predicate (T.scopes p selected) = some text ↔
        (∃ scope, T.ClosestScoped (T.scopes p selected) (T.store.objects p.term predicate) scope
          text) ∨
          T.LastUnscoped (T.scopes p selected) (T.store.objects p.term predicate) text) ∧
      ∀ c ∈ selected, ∀ scope text, T.ClosestScoped (T.scopes p selected)
        (T.store.objects p.term predicate) scope text → ∀ m ∈ c :: T.ancestors c,
        m.identifier = scope → ∀ n ∈ c :: T.ancestors c,
        ∀ value ∈ T.store.objects p.term predicate, ∀ l, T.Annotates value n.identifier l →
        distance T.RealParent c m ≤ distance T.RealParent c n := by
  refine ⟨resolveText_eq_none_iff, fun _ => resolveText_eq_some_iff, ?_⟩
  rintro c hc scope text h m hm hscope n hn value hvalue l hannotates
  obtain rfl : selected = some c := hc
  exact h.distance_le hT hm hscope hn hvalue hannotates

/-- Floor areas have a name of their own in houses, twice, and in buildings. For cottages a scope is
declared without a name. -/
def floors : Taxonomy where
  store := .ofList
    [⟨.iri "http://x/o#Building", Rdf.type, .iri Rdfs.classType⟩,
     ⟨.iri "http://x/o#House", Rdfs.subClassOf, .iri "http://x/o#Building"⟩,
     ⟨.iri "http://x/o#Cottage", Rdfs.subClassOf, .iri "http://x/o#House"⟩,
     ⟨.blank "living", Pot.scope, .iri "http://x/o#House"⟩,
     ⟨.blank "living", Rdf.value, .plain "livingArea"⟩,
     ⟨.blank "indoor", Pot.scope, .iri "http://x/o#House"⟩,
     ⟨.blank "indoor", Rdf.value, .plain "indoorArea"⟩,
     ⟨.blank "gross", Pot.scope, .iri "http://x/o#Building"⟩,
     ⟨.blank "gross", Rdf.value, .plain "grossArea"⟩,
     ⟨.blank "nameless", Pot.scope, .iri "http://x/o#Cottage"⟩,
     ⟨.iri "http://x/o#floorArea", Pot.contextName, .blank "living"⟩,
     ⟨.iri "http://x/o#floorArea", Pot.contextName, .blank "indoor"⟩,
     ⟨.iri "http://x/o#floorArea", Pot.contextName, .blank "gross"⟩,
     ⟨.iri "http://x/o#floorArea", Pot.contextName, .blank "nameless"⟩,
     ⟨.iri "http://x/o#floorArea", Pot.contextName, .plain "area"⟩]
  namespaces := .empty

theorem ancestors_floors : floors.ancestors (.ofClass (.iri "http://x/o#Cottage")) =
    [.ofClass (.iri "http://x/o#House"), .ofClass (.iri "http://x/o#Building")] := by
  let Building : Node := .ofClass (.iri "http://x/o#Building")
  let House : Node := .ofClass (.iri "http://x/o#House")
  let Cottage : Node := .ofClass (.iri "http://x/o#Cottage")
  have hCottage : floors.parentSteps.next Cottage = [House] := by decide +kernel
  have hHouse : floors.parentSteps.next House = [Building] := by decide +kernel
  have hBuilding : floors.parentSteps.next Building = [] := by decide +kernel
  have hkey : floors.parentSteps.key = Node.key := rfl
  have hkeys : [Building, House, Cottage].Pairwise fun m n => m.key ≠ n.key := by decide
  simp at hkeys
  show floors.parentSteps.reached Cottage = [House, Building]
  simp [Steps.reached, Steps.breadthFirst, hCottage, hHouse, hBuilding, hkey, hkeys]

/-- The floor area of a cottage has the later of the names that houses give it. -/
theorem floors_cottage :
    floors.store.Unambiguous ∧
      floors.resolveText (.ofProperty (.iri "http://x/o#floorArea")) Pot.contextName
        (floors.scopes (.ofProperty (.iri "http://x/o#floorArea"))
          (some (.ofClass (.iri "http://x/o#Cottage")))) = some "indoorArea" ∧
      ∃ scope, floors.ClosestScoped (floors.scopes (.ofProperty (.iri "http://x/o#floorArea"))
          (some (.ofClass (.iri "http://x/o#Cottage"))))
        (floors.store.objects (.iri "http://x/o#floorArea") Pot.contextName) scope "indoorArea" := by
  have hT : floors.store.Unambiguous := by decide
  have hscopes : floors.scopes (.ofProperty (.iri "http://x/o#floorArea"))
      (some (.ofClass (.iri "http://x/o#Cottage"))) =
        ["http://x/o#Cottage", "http://x/o#House", "http://x/o#Building"] := by
    rw [scopes, classScopes, ancestors_floors]
    rfl
  obtain ⟨-, hsome, -⟩ := closest_scope_wins floors hT (.ofProperty (.iri "http://x/o#floorArea"))
    Pot.contextName (some (.ofClass (.iri "http://x/o#Cottage")))
  rw [hscopes] at hsome ⊢
  have htext : floors.resolveText (.ofProperty (.iri "http://x/o#floorArea")) Pot.contextName
      ["http://x/o#Cottage", "http://x/o#House", "http://x/o#Building"] = some "indoorArea" := by
    decide
  refine ⟨hT, htext, ((hsome _).1 htext).resolve_right fun hlast => ?_⟩
  have hliving : floors.Annotates (.blank "living") "http://x/o#House" { text := "livingArea" } :=
    ⟨rfl, by decide, by decide +kernel⟩
  exact hlast.unscoped (.blank "living") (by decide) _ _ hliving (by simp)

end Taxonomy

end TaxonomyPress
