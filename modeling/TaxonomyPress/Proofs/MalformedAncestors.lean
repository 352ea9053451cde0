import TaxonomyPress.Proofs.FirstParents

/-!
# Malformed identifiers above a node

The lineages follow every path that does not come back to itself, and fail at the first node on one that
cannot be split. A path is cut where it meets itself, but whatever lies above a node lies above it without
coming back, so no malformed ancestor is cut off.

* `Taxonomy.fails_titlePaths_iff` : the title paths fail if and only if a node around the path does;
* `Taxonomy.fails_canonicalId_iff` : the canonical identifier fails if and only if a node of the chain
  does;
* `Taxonomy.malformed_ancestors_detected` : so lineages fail at any malformed ancestor, and canonical
  identifiers at one on the chain of first parents.
-/

namespace TaxonomyPress

open Relation

/-- An identifier that cannot be split is reported as it is. -/
theorem NamespaceTable.identifier_of_split_eq_error {table : NamespaceTable} {iri : String}
    {cause : MalformedIdentifier} (h : table.split iri = .error cause) : cause.identifier = iri := by
  unfold split at h
  repeat' split at h
  all_goals cases h
  all_goals rfl

namespace Taxonomy

variable {T : Taxonomy} {n : Node} {cause : MalformedIdentifier}

theorem identifier_of_split_eq_error (h : T.split n = .error cause) :
    cause.identifier = n.identifier := by
  obtain ⟨kind, term⟩ := n
  cases term with
  | iri i => exact NamespaceTable.identifier_of_split_eq_error h
  | blank label =>
    cases h
    rfl
  | literal l =>
    cases h
    rfl

/-! ## Every path -/

/-- Title paths fail for the reason of a node that the path can come to. -/
theorem exists_title_eq_error_of_titlePaths {onPath : List NodeKey}
    (h : T.titlePaths onPath n = .error cause) :
    ∃ m, ReflTransGen (T.parentSteps.Fresh onPath) n m ∧ T.title m = .error cause := by
  induction onPath, n using climb_induction (T := T) with
  | h onPath n ih =>
    rw [titlePaths_eq] at h
    rcases bind_eq_error_iff.1 h with htitle | ⟨title, -, h⟩
    · exact ⟨n, .refl, htitle⟩
    · rcases bind_eq_error_iff.1 h with habove | ⟨above, -, h⟩
      · obtain ⟨p, hp, hcause⟩ := exists_mem_of_mapM_eq_error habove
        obtain ⟨hparent, hkey⟩ := mem_freshParents.1 hp
        obtain ⟨m, hpm, hm⟩ := ih p hparent hkey hcause
        have hpm' : ReflTransGen (T.parentSteps.Fresh onPath) p m :=
          hpm.lift id fun _ _ hstep => hstep.mono (List.subset_cons_self _ _)
        exact ⟨m, .head ⟨mem_realParents_iff.2 hparent, hkey⟩ hpm', hm⟩
      · cases h

/-- They do fail if there is such a node: from the first parent on the way there is a way to it that does
not come back. -/
theorem fails_titlePaths_of_title (hT : T.store.Unambiguous) {onPath : List NodeKey} {m : Node}
    (hm : ReflTransGen (T.parentSteps.Fresh onPath) n m) (htitle : Fails (T.title m)) :
    Fails (T.titlePaths onPath n) := by
  induction onPath, n using climb_induction (T := T) with
  | h onPath n ih =>
    rw [titlePaths_eq, fails_bind_iff fun _ => fails_bind_pure_iff, fails_mapM_iff]
    rcases hm.cases_head with rfl | ⟨p, ⟨hp, hkey⟩, hpm⟩
    · exact Or.inl htitle
    · have hparent : T.RealParent n p := mem_realParents_iff.1 hp
      have hway : ReflTransGen (T.parentSteps.Fresh (p.key :: onPath)) p m :=
        (faithfulOn_parentSteps hT).fresh_cons_self (hparent.identifiable_right hT) hpm
      exact Or.inr ⟨p, mem_freshParents.2 ⟨hparent, hkey⟩, ih p hparent hkey hway⟩

theorem fails_titlePaths_iff (hT : T.store.Unambiguous) {onPath : List NodeKey} :
    Fails (T.titlePaths onPath n) ↔
      ∃ m, ReflTransGen (T.parentSteps.Fresh onPath) n m ∧ Fails (T.title m) := by
  constructor
  · rintro ⟨cause, h⟩
    obtain ⟨m, hm, hcause⟩ := exists_title_eq_error_of_titlePaths h
    exact ⟨m, hm, cause, hcause⟩
  · rintro ⟨m, hm, htitle⟩
    exact fails_titlePaths_of_title hT hm htitle

theorem mem_cons_ancestors_iff (hT : T.store.Unambiguous) {m : Node} :
    m ∈ n :: T.ancestors n ↔ ReflTransGen (T.parentSteps.Fresh [n.key]) n m :=
  Steps.mem_cons_reached_iff (faithfulOn_parentSteps hT) fun _ hp =>
    (mem_realParents_iff.1 hp).identifiable_right hT

theorem fails_lineages_iff (hT : T.store.Unambiguous) :
    Fails (T.lineages n) ↔ ∃ m ∈ n :: T.ancestors n, Fails (T.split m) := by
  unfold lineages
  rw [fails_bind_pure_iff, fails_titlePaths_iff hT]
  simp only [mem_cons_ancestors_iff hT, fails_title_iff]

theorem exists_split_eq_error_of_lineages (hT : T.store.Unambiguous)
    (h : T.lineages n = .error cause) : ∃ m ∈ n :: T.ancestors n, T.split m = .error cause := by
  unfold lineages at h
  rcases bind_eq_error_iff.1 h with h | ⟨paths, -, h⟩
  · obtain ⟨m, hm, hcause⟩ := exists_title_eq_error_of_titlePaths h
    exact ⟨m, (mem_cons_ancestors_iff hT).2 hm, title_eq_error_iff.1 hcause⟩
  · cases h

/-! ## The chain of first parents -/

theorem exists_split_eq_error_of_canonicalId (h : T.canonicalId n = .error cause) :
    ∃ m ∈ n :: T.firstParents n, T.split m = .error cause := by
  unfold canonicalId canonicalTitles at h
  rcases bind_eq_error_iff.1 h with hsplit | ⟨⟨front, title⟩, -, h⟩
  · exact ⟨n, List.mem_cons_self, hsplit⟩
  rcases bind_eq_error_iff.1 h with htitles | ⟨titles, -, h⟩
  · rcases bind_eq_error_iff.1 htitles with htitle | ⟨title, -, htitles⟩
    · exact ⟨n, List.mem_cons_self, title_eq_error_iff.1 htitle⟩
    rcases bind_eq_error_iff.1 htitles with habove | ⟨above, -, htitles⟩
    · obtain ⟨m, hm, hcause⟩ := exists_mem_of_mapM_eq_error habove
      exact ⟨m, List.mem_cons_of_mem n hm, title_eq_error_iff.1 hcause⟩
    · cases htitles
  · cases h

theorem fails_canonicalId_iff :
    Fails (T.canonicalId n) ↔ ∃ m ∈ n :: T.firstParents n, Fails (T.split m) := by
  unfold canonicalId canonicalTitles
  rw [fails_bind_iff fun _ => fails_bind_pure_iff, fails_bind_iff fun _ => fails_bind_pure_iff,
    fails_mapM_iff, List.exists_mem_cons_iff]
  simp only [fails_title_iff, or_self_left]

/-! ## The main result -/

/-- The chain of first parents leads to ancestors. -/
theorem mem_cons_ancestors_of_firstParents (hT : T.store.Unambiguous) {m : Node}
    (h : ReflTransGen T.FirstParent n m) : m ∈ n :: T.ancestors n := by
  by_cases hmn : m = n
  · exact hmn ▸ List.mem_cons_self
  · have hway : TransGen T.FirstParent n m := (reflTransGen_iff_eq_or_transGen.1 h).resolve_left hmn
    have habove : T.Above n m := hway.lift id fun _ _ => FirstParent.realParent
    exact List.mem_cons_of_mem n ((mem_ancestors_iff hT).2 ⟨hmn, habove⟩)

/-- **Lineages fail exactly at malformed ancestors.** The lineages of a node fail if and only if the
identifier of the node or of one of its ancestors cannot be split, however the paths above it come back to
themselves, and its canonical identifier fails if and only if that of a node on its chain of first parents
cannot be. So a node with lineages has a canonical identifier. The reason given is the identifier of such a
node. -/
theorem malformed_ancestors_detected (T : Taxonomy) (hT : T.store.Unambiguous) (n : Node) :
    (Fails (T.lineages n) ↔ ∃ m ∈ n :: T.ancestors n, Fails (T.split m)) ∧
    (Fails (T.canonicalId n) ↔ ∃ m, ReflTransGen T.FirstParent n m ∧ Fails (T.split m)) ∧
    (∀ lineages, T.lineages n = .ok lineages → ∃ id, T.canonicalId n = .ok id) ∧
    (∀ cause, T.lineages n = .error cause → ∃ m ∈ n :: T.ancestors n,
      T.split m = .error cause ∧ cause.identifier = m.identifier) ∧
    (∀ cause, T.canonicalId n = .error cause → ∃ m, ReflTransGen T.FirstParent n m ∧
      T.split m = .error cause ∧ cause.identifier = m.identifier) := by
  have hchain : Fails (T.canonicalId n) ↔
      ∃ m, ReflTransGen T.FirstParent n m ∧ Fails (T.split m) := by
    simp only [fails_canonicalId_iff, mem_cons_firstParents_iff hT]
  refine ⟨fails_lineages_iff hT, hchain, ?_, ?_, ?_⟩
  · intro lineages hlineages
    refine not_fails_iff.1 fun hfails => ?_
    obtain ⟨m, hm, hsplit⟩ := hchain.1 hfails
    have hlineagesFail : Fails (T.lineages n) :=
      (fails_lineages_iff hT).2 ⟨m, mem_cons_ancestors_of_firstParents hT hm, hsplit⟩
    rw [hlineages] at hlineagesFail
    exact not_fails_ok _ hlineagesFail
  · intro cause h
    obtain ⟨m, hm, hsplit⟩ := exists_split_eq_error_of_lineages hT h
    exact ⟨m, hm, hsplit, identifier_of_split_eq_error hsplit⟩
  · intro cause h
    obtain ⟨m, hm, hsplit⟩ := exists_split_eq_error_of_canonicalId h
    exact ⟨m, (mem_cons_firstParents_iff hT).1 hm, hsplit, identifier_of_split_eq_error hsplit⟩

/-- `House` and `Building` are parents of each other; the later parent of `Building` has no name. -/
def namelessAncestor : Taxonomy where
  store := .ofList
    [⟨.iri "http://x/o#House", Rdfs.subClassOf, .iri "http://x/o#Building"⟩,
     ⟨.iri "http://x/o#Building", Rdfs.subClassOf, .iri "http://x/o#House"⟩,
     ⟨.iri "http://x/o#Building", Rdfs.subClassOf, .blank "b"⟩,
     ⟨.blank "b", Rdf.type, .iri Rdfs.classType⟩]
  namespaces := .empty

/-- The lineages of the house meet the nameless class behind the loop; its canonical identifier does not. -/
theorem namelessAncestor_detected :
    Fails (namelessAncestor.lineages (.ofClass (.iri "http://x/o#House"))) ∧
      ∃ id, namelessAncestor.canonicalId (.ofClass (.iri "http://x/o#House")) = .ok id := by
  let House : Node := .ofClass (.iri "http://x/o#House")
  let Building : Node := .ofClass (.iri "http://x/o#Building")
  let nameless : Node := .ofClass (.blank "b")
  have hT : namelessAncestor.store.Unambiguous := by decide
  obtain ⟨hlineages, hid, -⟩ := malformed_ancestors_detected namelessAncestor hT House
  have hHouse : (namelessAncestor.realParents House).head? = some Building := by decide
  have hBuilding : (namelessAncestor.realParents Building).head? = some House := by decide
  have hnameless : namelessAncestor.RealParent Building nameless :=
    mem_realParents_iff.1 (by decide)
  constructor
  · have habove : namelessAncestor.Above House nameless :=
      .tail (.single (FirstParent.realParent hHouse)) hnameless
    have hmem : nameless ∈ namelessAncestor.ancestors House :=
      (mem_ancestors_iff hT).2 ⟨by decide, habove⟩
    exact hlineages.2 ⟨nameless, List.mem_cons_of_mem _ hmem, ⟨"_:b"⟩, rfl⟩
  · -- first parents lead from each of the two to the other
    have hloop : ∀ m, ReflTransGen namelessAncestor.FirstParent House m → m = House ∨ m = Building := by
      intro m hm
      induction hm with
      | refl => exact Or.inl rfl
      | tail _ hstep ih =>
        rcases ih with rfl | rfl
        · exact Or.inr (Option.some.inj (hstep.symm.trans hHouse))
        · exact Or.inl (Option.some.inj (hstep.symm.trans hBuilding))
    refine not_fails_iff.1 fun hfails => ?_
    obtain ⟨m, hm, hsplit⟩ := hid.1 hfails
    have hnames : ¬ Fails (namelessAncestor.split House) ∧ ¬ Fails (namelessAncestor.split Building) := by
      decide
    rcases hloop m hm with rfl | rfl
    · exact hnames.1 hsplit
    · exact hnames.2 hsplit

end Taxonomy

end TaxonomyPress
