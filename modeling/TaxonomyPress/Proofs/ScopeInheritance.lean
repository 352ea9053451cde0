import TaxonomyPress.Proofs.LanguageTexts

/-!
# What applies to a parent applies to its children

* `Taxonomy.classScopes_subset` : the scopes of a parent are among those of its children, also around
  loops, and more scopes let more values count (`Taxonomy.Says.mono`);
* `Taxonomy.classScopes_of_only_parent` : a class with one parent only, and not above it, has its own
  scope and behind that those of the parent;
* `Taxonomy.resolveTexts_cons`, `Taxonomy.resolveText_cons` : a scope that no text has makes no
  difference in front of others;
* `Taxonomy.parents_texts_inherited` : so classes inherit languages and single values, and all their
  texts where nothing is said of themselves.
-/

namespace TaxonomyPress

/-! ## Ranks one step farther away -/

/-- One pass over ranked texts does not see how far away all of them are. -/
theorem closest_map_succ (ranked : List (Nat × String)) :
    closest (ranked.map fun e => (e.1 + 1, e.2)) = (closest ranked).map fun e => (e.1 + 1, e.2) := by
  induction ranked using List.reverseRecOn with
  | nil => rfl
  | append_singleton ranked entry ih =>
    rw [List.map_append, List.map_singleton, closest_concat, closest_concat, ih]
    cases closest ranked with
    | none => rfl
    | some best =>
      show (if entry.1 + 1 ≤ best.1 + 1 then _ else _) = Option.map _ (if entry.1 ≤ best.1 then _ else _)
      by_cases hle : entry.1 ≤ best.1
      · rw [if_pos hle, if_pos (by omega)]
        rfl
      · rw [if_neg hle, if_neg (by omega)]
        rfl

namespace Taxonomy

open Relation

variable {T : Taxonomy} {scopes scopes' : List String} {p c parent : Node}
  {predicate scope : String} {value : Term} {l : Literal}

/-! ## More scopes -/

theorem Says.mono (h : T.Says scopes value l) (hscopes : scopes ⊆ scopes') :
    T.Says scopes' value l := by
  rcases h with rfl | ⟨scope, hmem, hannotates⟩
  · exact Or.inl rfl
  · exact Or.inr ⟨scope, hscopes hmem, hannotates⟩

theorem Applies.mono (h : T.Applies scopes value) (hscopes : scopes ⊆ scopes') :
    T.Applies scopes' value := by
  obtain ⟨l, hsays⟩ := exists_says_iff.2 h
  exact exists_says_iff.1 ⟨l, hsays.mono hscopes⟩

/-- Under more scopes a property has a text in more languages. -/
theorem keys_resolveTexts_subset (hscopes : scopes ⊆ scopes') :
    (T.resolveTexts p predicate scopes).keys ⊆ (T.resolveTexts p predicate scopes').keys := by
  intro language hlanguage
  obtain ⟨value, hvalue, l, hsays, hl⟩ := mem_keys_resolveTexts_iff.1 hlanguage
  exact mem_keys_resolveTexts_iff.2 ⟨value, hvalue, l, hsays.mono hscopes, hl⟩

/-- Under more scopes it keeps having a single value. -/
theorem isSome_resolveText_mono (hscopes : scopes ⊆ scopes')
    (h : (T.resolveText p predicate scopes).isSome) : (T.resolveText p predicate scopes').isSome := by
  rw [Option.isSome_iff_ne_none, ne_eq, resolveText_eq_none_iff] at h ⊢
  exact fun hnone => h fun value hvalue happlies => hnone value hvalue (happlies.mono hscopes)

/-! ## One more scope -/

/-- A scope that a value does not have makes no difference to it, but that others are farther away. -/
theorem rankedText_cons (h : ∀ l, ¬ T.Annotates value scope l) :
    T.rankedText (scope :: scopes) value =
      (T.rankedText scopes value).map fun e => (e.1 + 1, e.2) := by
  ext ⟨rank, l⟩
  simp only [Option.map_eq_some_iff, Prod.exists, rankedText_eq_some_iff, Prod.mk.injEq]
  constructor
  · intro hrank
    cases hrank with
    | anywhere => exact ⟨scopes.length, l, .anywhere l, rfl, rfl⟩
    | @within _ other _ hannotates hmem =>
      have hne : scope ≠ other := by
        rintro rfl
        exact h l hannotates
      have hother : other ∈ scopes := (List.mem_cons.1 hmem).resolve_left hne.symm
      exact ⟨scopes.idxOf other, l, .within hannotates hother, (List.idxOf_cons_ne _ hne).symm, rfl⟩
  · rintro ⟨rank, l, hrank, rfl, rfl⟩
    cases hrank with
    | anywhere => exact .anywhere l
    | @within _ other _ hannotates hmem =>
      have hne : scope ≠ other := by
        rintro rfl
        exact h l hannotates
      rw [← Nat.succ_eq_add_one, ← List.idxOf_cons_ne scopes hne]
      exact .within hannotates (List.mem_cons_of_mem scope hmem)

theorem applicable_cons
    (h : ∀ value ∈ T.store.objects p.term predicate, ∀ l, ¬ T.Annotates value scope l) :
    T.applicable p predicate (scope :: scopes) =
      (T.applicable p predicate scopes).map fun e => (e.1 + 1, e.2) := by
  rw [applicable_eq_filterMap, applicable_eq_filterMap, List.map_filterMap]
  exact List.filterMap_congr fun value hvalue => rankedText_cons (h value hvalue)

/-- A scope that no text has makes no difference to the texts by language. -/
theorem resolveTexts_cons
    (h : ∀ value ∈ T.store.objects p.term predicate, ∀ l, ¬ T.Annotates value scope l) :
    T.resolveTexts p predicate (scope :: scopes) = T.resolveTexts p predicate scopes := by
  rw [resolveTexts, resolveTexts, applicable_cons h, List.map_map]
  rfl

/-- It makes no difference to the single value either, since all others keep their order. -/
theorem resolveText_cons
    (h : ∀ value ∈ T.store.objects p.term predicate, ∀ l, ¬ T.Annotates value scope l) :
    T.resolveText p predicate (scope :: scopes) = T.resolveText p predicate scopes := by
  have hmap : (T.applicable p predicate (scope :: scopes)).map (fun e => (e.1, e.2.text)) =
      ((T.applicable p predicate scopes).map fun e => (e.1, e.2.text)).map
        fun e => (e.1 + 1, e.2) := by
    rw [applicable_cons h, List.map_map, List.map_map]
    rfl
  show (closest ((T.applicable p predicate (scope :: scopes)).map fun e => (e.1, e.2.text))).map _ = _
  rw [hmap, closest_map_succ, Option.map_map]
  rfl

/-! ## Scopes of parents and children -/

/-- Whatever lies above a parent lies above its child, or is the child. -/
theorem classScopes_subset (hT : T.store.Unambiguous) (h : T.RealParent c parent) :
    T.classScopes parent ⊆ T.classScopes c := by
  apply List.map_subset
  intro m hm
  have habove : T.Above c m := by
    rcases List.mem_cons.1 hm with rfl | hm
    · exact .single h
    · exact .head h ((mem_ancestors_iff hT).1 hm).2
  by_cases hmc : m = c
  · exact hmc ▸ List.mem_cons_self
  · exact List.mem_cons_of_mem c ((mem_ancestors_iff hT).2 ⟨hmc, habove⟩)

/-- Above a class with one parent only, and not above it, are the parent and what is above that. -/
theorem ancestors_of_only_parent (hT : T.store.Unambiguous) (h : T.realParents c = [parent])
    (hnot : c ∉ T.ancestors parent) : T.ancestors c = parent :: T.ancestors parent := by
  have hparent : T.RealParent c parent := mem_realParents_iff.1 (by rw [h]; exact List.mem_cons_self)
  have hc : c.term.Identifiable := hparent.identifiable_left hT
  have hp : parent.term.Identifiable := hparent.identifiable_right hT
  apply Steps.reached_of_next_eq_singleton h
  · intro hkey
    exact hparent.term_ne (congrArg Node.term ((Node.key_inj hp hc).1 hkey))
  · intro m hm hkey
    have habove : T.Above parent m := ((mem_ancestors_iff hT).1 hm).2
    obtain ⟨q, -, hq⟩ := TransGen.tail'_iff.1 habove
    obtain rfl : m = c := (Node.key_inj (hq.identifiable_right hT) hc).1 hkey
    exact hnot hm

theorem classScopes_of_only_parent (hT : T.store.Unambiguous) (h : T.realParents c = [parent])
    (hnot : c ∉ T.ancestors parent) : T.classScopes c = c.identifier :: T.classScopes parent := by
  rw [classScopes, ancestors_of_only_parent hT h hnot]
  rfl

theorem nodup_realParents (T : Taxonomy) (n : Node) : (T.realParents n).Nodup :=
  ((nodup_distinct _).filter _).map fun _ _ heq => congrArg Node.term heq

/-- A node with one parent only has a list of one parent. -/
theorem realParents_eq_singleton (h : T.RealParent c parent)
    (honly : ∀ q, T.RealParent c q → q = parent) : T.realParents c = [parent] := by
  refine List.perm_singleton.1
    ((List.perm_ext_iff_of_nodup (nodup_realParents T c) (List.nodup_singleton _)).2 ?_)
  intro q
  rw [mem_realParents_iff, List.mem_singleton]
  constructor
  · exact honly q
  · rintro rfl
    exact h

/-! ## The main result -/

/-- **What applies to a parent applies to its children**, on every graph. A property has a text under a
class in every language in which it has one under a parent, and a single value if it has one there. With
one parent only, which the class is not above, both have the same texts and values unless some text is
scoped to the class itself. -/
theorem parents_texts_inherited (T : Taxonomy) (hT : T.store.Unambiguous) (p : Node)
    (predicate : String) {c : Term} {parent : Node} (hparent : T.RealParent (.ofClass c) parent) :
    (∀ language ∈ (T.resolveTexts p predicate (T.scopes p (some parent))).keys,
      language ∈ (T.resolveTexts p predicate (T.scopes p (some (.ofClass c)))).keys) ∧
      ((T.resolveText p predicate (T.scopes p (some parent))).isSome →
        (T.resolveText p predicate (T.scopes p (some (.ofClass c)))).isSome) ∧
      ((∀ q, T.RealParent (.ofClass c) q → q = parent) → .ofClass c ∉ T.ancestors parent →
        (∀ value ∈ T.store.objects p.term predicate, ∀ l, ¬ T.Annotates value c.identifier l) →
        T.resolveTexts p predicate (T.scopes p (some (.ofClass c))) =
            T.resolveTexts p predicate (T.scopes p (some parent)) ∧
          T.resolveText p predicate (T.scopes p (some (.ofClass c))) =
            T.resolveText p predicate (T.scopes p (some parent))) := by
  have hscopes : T.classScopes parent ⊆ T.classScopes (.ofClass c) := classScopes_subset hT hparent
  refine ⟨keys_resolveTexts_subset hscopes, isSome_resolveText_mono hscopes, ?_⟩
  intro honly hnot hnone
  have hcons : T.classScopes (.ofClass c) = c.identifier :: T.classScopes parent :=
    classScopes_of_only_parent hT (realParents_eq_singleton hparent honly) hnot
  show T.resolveTexts p predicate (T.classScopes _) = T.resolveTexts p predicate (T.classScopes _) ∧
    T.resolveText p predicate (T.classScopes _) = T.resolveText p predicate (T.classScopes _)
  rw [hcons]
  exact ⟨resolveTexts_cons hnone, resolveText_cons hnone⟩

theorem ancestors_floors_House : floors.ancestors (.ofClass (.iri "http://x/o#House")) =
    [.ofClass (.iri "http://x/o#Building")] := by
  let Building : Node := .ofClass (.iri "http://x/o#Building")
  let House : Node := .ofClass (.iri "http://x/o#House")
  have hHouse : floors.parentSteps.next House = [Building] := by decide +kernel
  have hBuilding : floors.parentSteps.reached Building = [] :=
    Steps.reached_of_next_eq_nil (by decide +kernel)
  have hkey : floors.parentSteps.key Building ≠ floors.parentSteps.key House := by decide
  show floors.parentSteps.reached House = [Building]
  rw [Steps.reached_of_next_eq_singleton hHouse hkey (by simp [hBuilding]), hBuilding]

/-- Nothing is said of the floor area of cottages but a scope, so it has the name that houses give it. -/
theorem floors_cottage_inherits :
    floors.store.Unambiguous ∧
      floors.RealParent (.ofClass (.iri "http://x/o#Cottage")) (.ofClass (.iri "http://x/o#House")) ∧
      floors.resolveText (.ofProperty (.iri "http://x/o#floorArea")) Pot.contextName
          (floors.scopes (.ofProperty (.iri "http://x/o#floorArea"))
            (some (.ofClass (.iri "http://x/o#House")))) = some "indoorArea" ∧
      floors.resolveText (.ofProperty (.iri "http://x/o#floorArea")) Pot.contextName
          (floors.scopes (.ofProperty (.iri "http://x/o#floorArea"))
            (some (.ofClass (.iri "http://x/o#Cottage")))) = some "indoorArea" := by
  let floorArea : Node := .ofProperty (.iri "http://x/o#floorArea")
  let House : Node := .ofClass (.iri "http://x/o#House")
  let Cottage : Node := .ofClass (.iri "http://x/o#Cottage")
  have hT : floors.store.Unambiguous := by decide
  have hparents : floors.realParents Cottage = [House] := by decide
  have hparent : floors.RealParent Cottage House :=
    mem_realParents_iff.1 (by rw [hparents]; exact List.mem_singleton_self House)
  have honly : ∀ q, floors.RealParent Cottage q → q = House := by
    intro q hq
    rwa [← mem_realParents_iff, hparents, List.mem_singleton] at hq
  have hnot : Cottage ∉ floors.ancestors House := by
    rw [ancestors_floors_House]
    decide
  have hnone : ∀ value ∈ floors.store.objects floorArea.term Pot.contextName, ∀ l,
      ¬ floors.Annotates value "http://x/o#Cottage" l := by
    have htextless : ∀ value ∈ floors.store.objects floorArea.term Pot.contextName,
        (floors.store.objects value Pot.scope).head?.map floors.scopeIdentifier =
            some "http://x/o#Cottage" →
          (floors.store.objects value Rdf.value).findSome? Term.asLiteral = none := by
      decide
    intro value hvalue l hannotates
    have htext := htextless value hvalue hannotates.scope
    rw [hannotates.text] at htext
    cases htext
  have hHouse : floors.resolveText floorArea Pot.contextName (floors.scopes floorArea (some House)) =
      some "indoorArea" := by
    have hscopes : floors.scopes floorArea (some House) =
        ["http://x/o#House", "http://x/o#Building"] := by
      rw [scopes, classScopes, ancestors_floors_House]
      rfl
    rw [hscopes]
    decide +kernel
  obtain ⟨-, -, hsame⟩ := parents_texts_inherited floors hT floorArea Pot.contextName hparent
  exact ⟨hT, hparent, hHouse, (hsame honly hnot hnone).2.trans hHouse⟩

end Taxonomy

end TaxonomyPress
