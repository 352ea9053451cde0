import TaxonomyPress.Proofs.Lineages

/-!
# The chain of first parents

The canonical identifier follows first parents and stops at the first repetition. A lineage goes on
with another parent there, so on a loop with an exit the chain is only the beginning of a climb.

* `Taxonomy.ChainExhausted` : the chain has left no parent out at its end;
* `Taxonomy.climb_firstParents`, `Taxonomy.exists_climb_firstParents` : then it is a climb, and
  always it is the beginning of one; without loops it is exhausted (`chainExhausted_of_acyclic`);
* `Taxonomy.canonicalTitles_suffix`, `Taxonomy.canonicalTitles_mem_lineages` : so its titles are the
  end of a lineage, or a lineage;
* `Taxonomy.lineages_of_root` : a class without parents has one lineage, its title;
* `Taxonomy.FirstParent`, `Taxonomy.mem_cons_firstParents_iff` : a node and its chain are what steps to
  first parents lead to.
-/

namespace TaxonomyPress.Taxonomy

open Relation

variable {T : Taxonomy}

/-! ## The chain of first parents -/

theorem firstChain_eq_nil {onPath : List NodeKey} {n : Node}
    (h : ∀ p ∈ (T.realParents n).head?, p.key ∈ onPath) :
    T.parentSteps.firstChain onPath n = [] := by
  rw [Steps.firstChain]
  split
  · rfl
  · rename_i p hp
    exact dif_pos (h p hp)

theorem firstChain_eq_cons {onPath : List NodeKey} {n p : Node}
    (hp : p ∈ (T.realParents n).head?) (hkey : p.key ∉ onPath) :
    T.parentSteps.firstChain onPath n = p :: T.parentSteps.firstChain (p.key :: onPath) p := by
  rw [Steps.firstChain]
  split
  · rename_i hnone
    have hsome : (T.realParents n).head? = none := hnone
    rw [hsome] at hp
    cases hp
  · rename_i q hq
    obtain rfl : p = q := Option.some.inj (hp.symm.trans hq)
    exact dif_neg hkey

/-- The chain stops, or goes on with the first parent, whose key is fresh. -/
theorem firstChain_cases (T : Taxonomy) (onPath : List NodeKey) (n : Node) :
    (T.parentSteps.firstChain onPath n = [] ∧ ∀ p ∈ (T.realParents n).head?, p.key ∈ onPath) ∨
      ∃ p, T.RealParent n p ∧ p.key ∉ onPath ∧ T.parentSteps.firstChain onPath n =
        p :: T.parentSteps.firstChain (p.key :: onPath) p := by
  by_cases h : ∀ p ∈ (T.realParents n).head?, p.key ∈ onPath
  · exact Or.inl ⟨firstChain_eq_nil h, h⟩
  · push Not at h
    obtain ⟨p, hp, hkey⟩ := h
    have hparent : T.RealParent n p := mem_realParents_iff.1 (List.mem_of_mem_head? hp)
    exact Or.inr ⟨p, hparent, hkey, firstChain_eq_cons hp hkey⟩

/-- Where the chain stops, some climb goes on. -/
theorem exists_climb_firstChain (onPath : List NodeKey) (n : Node) :
    ∃ more, T.Climb onPath n (n :: T.parentSteps.firstChain onPath n ++ more) := by
  induction onPath, n using climb_induction (T := T) with
  | h onPath n ih =>
    rcases firstChain_cases T onPath n with ⟨hstop, -⟩ | ⟨p, hp, hkey, hchain⟩
    · obtain ⟨path, hpath⟩ := exists_climb (T := T) onPath n
      obtain ⟨rest, rfl⟩ := hpath.eq_cons
      refine ⟨rest, ?_⟩
      rw [hstop]
      exact hpath
    · obtain ⟨more, hmore⟩ := ih p hp hkey
      refine ⟨more, ?_⟩
      rw [hchain]
      exact .step hp hkey hmore

/-- A chain that leaves no parent of its last node out is a climb. -/
theorem climb_firstChain (onPath : List NodeKey) (n : Node)
    (h : ∀ last ∈ (n :: T.parentSteps.firstChain onPath n).getLast?, ∀ p, T.RealParent last p →
      p.key ∈ onPath ∨ p.key ∈ (T.parentSteps.firstChain onPath n).map Node.key) :
    T.Climb onPath n (n :: T.parentSteps.firstChain onPath n) := by
  induction onPath, n using climb_induction (T := T) with
  | h onPath n ih =>
    rcases firstChain_cases T onPath n with ⟨hstop, -⟩ | ⟨p, hp, hkey, hchain⟩
    · rw [hstop] at h ⊢
      refine .root fun q hq => ?_
      rcases h n rfl q hq with hq | hq
      · exact hq
      · cases hq
    · rw [hchain] at h ⊢
      refine .step hp hkey (ih p hp hkey fun last hlast q hq => ?_)
      rw [List.getLast?_cons_cons] at h
      rcases h last hlast q hq with hq | hq
      · exact Or.inl (List.mem_cons_of_mem _ hq)
      · rw [List.map_cons] at hq
        rcases List.mem_cons.1 hq with hq | hq
        · exact Or.inl (hq ▸ List.mem_cons_self)
        · exact Or.inr hq

/-- Every parent of the last node of the chain is on the chain. -/
def ChainExhausted (T : Taxonomy) (n : Node) : Prop :=
  ∀ last ∈ (n :: T.firstParents n).getLast?, ∀ p, T.RealParent last p →
    p.key ∈ (n :: T.firstParents n).map Node.key

theorem exists_climb_firstParents (n : Node) :
    ∃ more, T.Climb [n.key] n (n :: T.firstParents n ++ more) :=
  exists_climb_firstChain [n.key] n

theorem climb_firstParents {n : Node} (h : T.ChainExhausted n) :
    T.Climb [n.key] n (n :: T.firstParents n) := by
  apply climb_firstChain
  intro last hlast p hp
  have hmem : p.key ∈ [n.key] ++ (T.firstParents n).map Node.key := h last hlast p hp
  exact List.mem_append.1 hmem

/-- Just then it is a maximal path. -/
theorem ancestorPath_firstParents_iff (hT : T.store.Unambiguous) {n : Node} :
    T.AncestorPath n (n :: T.firstParents n) ↔ T.ChainExhausted n := by
  constructor
  · intro h last hlast p hp
    exact List.mem_map_of_mem (h.maximal last hlast p hp)
  · intro h
    exact (climb_iff_ancestorPath hT).1 (climb_firstParents h)

/-- No step leads back to a node on the way, when nothing that `n` leads to lies above itself. -/
theorem RealParent.key_notMem_of_acyclic {n p : Node} (hp : T.RealParent n p)
    (hT : T.store.Unambiguous) {before : List Node} (habove : ∀ m ∈ before, m = n ∨ T.Above m n)
    (hacyclic : ¬ T.Above n n) : p.key ∉ before.map Node.key := by
  intro hkey
  obtain ⟨m, hm, hmp⟩ := List.mem_map.1 hkey
  have hm' : m.term.Identifiable := by
    rcases habove m hm with rfl | habove
    · exact hp.identifiable_left hT
    · exact habove.identifiable_left hT
  obtain rfl : m = p := (Node.key_inj hm' (hp.identifiable_right hT)).1 hmp
  apply hacyclic
  rcases habove m hm with rfl | habove
  · exact TransGen.single hp
  · exact TransGen.head hp habove

/-- Without a loop the chain ends at a root. -/
theorem isRoot_of_acyclic (hT : T.store.Unambiguous) {onPath : List NodeKey} {n : Node}
    {before : List Node} (hkeys : onPath = before.map Node.key)
    (habove : ∀ m ∈ before, m = n ∨ T.Above m n)
    (hacyclic : ∀ m, m = n ∨ T.Above n m → ¬ T.Above m m) :
    ∀ last ∈ (n :: T.parentSteps.firstChain onPath n).getLast?, ∀ p, ¬ T.RealParent last p := by
  induction onPath, n using climb_induction (T := T) generalizing before with
  | h onPath n ih =>
    subst hkeys
    have hself : ¬ T.Above n n := hacyclic n (Or.inl rfl)
    rcases firstChain_cases T (before.map Node.key) n with ⟨hstop, hhead⟩ | ⟨p, hp, hkey, hchain⟩
    · rw [hstop]
      intro last hlast p hp
      obtain rfl : n = last := Option.some.inj hlast
      have hne : T.realParents n ≠ [] := List.ne_nil_of_mem (mem_realParents_iff.2 hp)
      obtain ⟨q, hq⟩ := Option.isSome_iff_exists.1 (List.isSome_head?.2 hne)
      have hparent : T.RealParent n q := mem_realParents_iff.1 (List.mem_of_mem_head? hq)
      exact hparent.key_notMem_of_acyclic hT habove hself (hhead q hq)
    · have hkeys : p.key :: before.map Node.key = (p :: before).map Node.key := rfl
      rw [hchain, List.getLast?_cons_cons]
      apply ih p hp hkey hkeys
      · intro m hm
        rcases List.mem_cons.1 hm with rfl | hm
        · exact Or.inl rfl
        · rcases habove m hm with rfl | habove
          · exact Or.inr (TransGen.single hp)
          · exact Or.inr (TransGen.tail habove hp)
      · intro m hm
        apply hacyclic
        rcases hm with rfl | hm
        · exact Or.inr (TransGen.single hp)
        · exact Or.inr (TransGen.head hp hm)

theorem chainExhausted_of_acyclic (hT : T.store.Unambiguous) {n : Node}
    (hacyclic : ∀ m, m = n ∨ T.Above n m → ¬ T.Above m m) : T.ChainExhausted n := by
  intro last hlast p hp
  have habove : ∀ m ∈ [n], m = n ∨ T.Above m n := fun m hm => Or.inl (List.mem_singleton.1 hm)
  exact absurd hp (isRoot_of_acyclic hT rfl habove hacyclic last hlast p)

/-! ## The titles of the chain -/

theorem canonicalTitles_eq_ok_iff {n : Node} {titles : List String} :
    T.canonicalTitles n = .ok titles ↔ (n :: T.firstParents n).reverse.mapM T.title = .ok titles := by
  unfold canonicalTitles
  rw [bind_eq_ok_iff, mapM_reverse_eq_ok_iff, List.mapM_cons, bind_eq_ok_iff]
  refine exists_congr fun title => and_congr_right fun _ => ?_
  rw [bind_eq_ok_iff, bind_eq_ok_iff]
  refine exists_congr fun above => and_congr_right fun _ => ?_
  rw [pure_eq_ok_iff, pure_eq_ok_iff, ← List.reverse_cons, List.reverse_eq_iff]

theorem canonicalId_eq_ok_iff {n : Node} {id : String} :
    T.canonicalId n = .ok id ↔ ∃ front title titles, T.split n = .ok (front, title) ∧
      T.canonicalTitles n = .ok titles ∧ front ++ ":" ++ Text.join "/" titles = id := by
  unfold canonicalId
  rw [bind_eq_ok_iff]
  constructor
  · rintro ⟨⟨front, title⟩, hsplit, h⟩
    obtain ⟨titles, htitles, h⟩ := bind_eq_ok_iff.1 h
    exact ⟨front, title, titles, hsplit, htitles, pure_eq_ok_iff.1 h⟩
  · rintro ⟨front, title, titles, hsplit, htitles, rfl⟩
    exact ⟨(front, title), hsplit, bind_eq_ok_iff.2 ⟨titles, htitles, rfl⟩⟩

/-- The canonical path is the end of a lineage. -/
theorem canonicalTitles_suffix {n : Node} {titles : List String} {lineages : List (List String)}
    (htitles : T.canonicalTitles n = .ok titles) (h : T.lineages n = .ok lineages) :
    ∃ l ∈ lineages, titles <:+ l := by
  obtain ⟨more, hclimb⟩ := exists_climb_firstParents (T := T) n
  obtain ⟨l, hl, hpath⟩ := lineages_complete h hclimb
  rw [List.reverse_append] at hpath
  obtain ⟨front, back, -, hback, rfl⟩ := mapM_append_eq_ok_iff.1 hpath
  rw [canonicalTitles_eq_ok_iff.1 htitles] at hback
  obtain rfl : titles = back := Except.ok.inj hback
  exact ⟨_, hl, List.suffix_append front titles⟩

theorem canonicalTitles_mem_lineages {n : Node} {titles : List String}
    {lineages : List (List String)} (htitles : T.canonicalTitles n = .ok titles)
    (h : T.lineages n = .ok lineages) (hchain : T.ChainExhausted n) : titles ∈ lineages := by
  obtain ⟨l, hl, hpath⟩ := lineages_complete h (climb_firstParents hchain)
  rw [canonicalTitles_eq_ok_iff.1 htitles] at hpath
  obtain rfl : titles = l := Except.ok.inj hpath
  exact hl

/-! ## Roots -/

theorem firstParents_of_root {n : Node} (h : T.realParents n = []) : T.firstParents n = [] := by
  apply firstChain_eq_nil
  rw [h]
  intro p hp
  cases hp

theorem canonicalTitles_of_root {n : Node} {title : String} (h : T.realParents n = [])
    (htitle : T.title n = .ok title) : T.canonicalTitles n = .ok [title] := by
  rw [canonicalTitles_eq_ok_iff, firstParents_of_root h]
  exact mapM_eq_ok_iff.2 (.cons htitle .nil)

theorem lineages_of_root {n : Node} {title : String} (h : T.realParents n = [])
    (htitle : T.title n = .ok title) : T.lineages n = .ok [[title]] := by
  have hpaths : T.titlePaths [n.key] n = .ok [[title]] := by
    refine titlePaths_eq_ok_iff.2 ⟨title, [], htitle, ?_, rfl⟩
    rw [freshParents, h]
    rfl
  exact lineages_eq_ok_iff.2 ⟨_, hpaths, by simp [sortWith, distinct, distinctBy, distinctFrom]⟩

/-! ## First parents alone -/

/-- The first real parent of `n` is `p`. -/
def FirstParent (T : Taxonomy) (n p : Node) : Prop := (T.realParents n).head? = some p

theorem FirstParent.realParent {n p : Node} (h : T.FirstParent n p) : T.RealParent n p :=
  mem_realParents_iff.1 (List.mem_of_mem_head? h)

theorem leads_firstOnly_parentSteps : T.parentSteps.firstOnly.Leads = T.FirstParent := by
  funext n p
  exact propext Option.mem_toList

theorem firstParents_eq_reached (n : Node) : T.firstParents n = T.parentSteps.firstOnly.reached n :=
  Steps.firstChain_eq_breadthFirst _ n

theorem mem_firstParents_iff (hT : T.store.Unambiguous) {n m : Node} :
    m ∈ T.firstParents n ↔ m ≠ n ∧ TransGen T.FirstParent n m := by
  have hstart : n.term.Identifiable ∨ T.parentSteps.firstOnly.next n = [] := by
    refine (identifiable_or_root hT n).imp_right fun hroot => ?_
    show (T.realParents n).head?.toList = []
    rw [hroot]
    rfl
  rw [firstParents_eq_reached, Steps.mem_reached_iff (faithfulOn_parentSteps hT).firstOnly hstart,
    leads_firstOnly_parentSteps]

/-- **A node and its chain are what steps to first parents lead to.** -/
theorem mem_cons_firstParents_iff (hT : T.store.Unambiguous) {n m : Node} :
    m ∈ n :: T.firstParents n ↔ ReflTransGen T.FirstParent n m := by
  rw [List.mem_cons, mem_firstParents_iff hT, reflTransGen_iff_eq_or_transGen]
  by_cases hm : m = n
  · simp [hm]
  · simp [hm]

end TaxonomyPress.Taxonomy
