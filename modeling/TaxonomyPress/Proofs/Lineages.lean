import TaxonomyPress.Proofs.Ancestors
import TaxonomyPress.Proofs.Order
import TaxonomyPress.Proofs.Traversal
import TaxonomyPress.Taxonomy.Lineage

/-!
# Lineages are the maximal ancestor paths

* `Taxonomy.Climb` : a way upwards around visited keys that ends where it cannot go on;
* `Taxonomy.titlePaths_sound`, `Taxonomy.titlePaths_complete` : the title paths are those of the
  climbs;
* `Taxonomy.AncestorPath` : a path of real parents without repetition that no parent extends;
  climbs from a node are just these (`Taxonomy.climb_iff_ancestorPath`);
* `Taxonomy.lineages_maximal_ancestor_paths` : the lineages are their titles.
-/

namespace TaxonomyPress.Taxonomy

variable {T : Taxonomy}

/-! ## Climbs -/

/-- A climb goes from `n` to real parents with keys that are neither in `onPath` nor on its way, and
ends where there is none. -/
inductive Climb (T : Taxonomy) : List NodeKey → Node → List Node → Prop where
  | root {onPath : List NodeKey} {n : Node}
      (stuck : ∀ p, T.RealParent n p → p.key ∈ onPath) : Climb T onPath n [n]
  | step {onPath : List NodeKey} {n p : Node} {path : List Node} (parent : T.RealParent n p)
      (fresh : p.key ∉ onPath) (rest : Climb T (p.key :: onPath) p path) :
      Climb T onPath n (n :: path)

theorem Climb.eq_cons {onPath : List NodeKey} {n : Node} {path : List Node}
    (h : T.Climb onPath n path) : ∃ rest, path = n :: rest := by
  cases h with
  | root => exact ⟨[], rfl⟩
  | step => exact ⟨_, rfl⟩

/-- What holds of a node if it holds of its fresh parents holds of all nodes. -/
theorem climb_induction {motive : List NodeKey → Node → Prop}
    (h : ∀ onPath n, (∀ p, T.RealParent n p → p.key ∉ onPath → motive (p.key :: onPath) p) →
      motive onPath n) (onPath : List NodeKey) (n : Node) : motive onPath n := by
  refine h onPath n fun p hp hkey => ?_
  have hmem : p.key ∈ T.parentSteps.keys := Steps.key_mem_keys (mem_realParents_iff.2 hp)
  have hlt := remaining_cons_lt hmem hkey
  exact climb_induction h (p.key :: onPath) p
termination_by remaining T.parentSteps.keys onPath

theorem exists_climb (onPath : List NodeKey) (n : Node) : ∃ path, T.Climb onPath n path := by
  induction onPath, n using climb_induction (T := T) with
  | h onPath n ih =>
    by_cases hfresh : ∃ p, T.RealParent n p ∧ p.key ∉ onPath
    · obtain ⟨p, hp, hkey⟩ := hfresh
      obtain ⟨path, hpath⟩ := ih p hp hkey
      exact ⟨n :: path, .step hp hkey hpath⟩
    · refine ⟨[n], .root fun p hp => ?_⟩
      by_contra hkey
      exact hfresh ⟨p, hp, hkey⟩

/-! ## Title paths -/

/-- Only what cannot be split has no title. -/
theorem title_eq_error_iff {n : Node} {cause : MalformedIdentifier} :
    T.title n = .error cause ↔ T.split n = .error cause := by
  unfold title
  cases T.split n with
  | ok names => simp [Except.map]
  | error cause' => simp [Except.map]

theorem title_eq_ok_iff {n : Node} {title : String} :
    T.title n = .ok title ↔ ∃ front, T.split n = .ok (front, title) := by
  unfold Taxonomy.title
  cases T.split n with
  | ok names => simp [Except.map, Prod.ext_iff]
  | error cause => simp [Except.map]

theorem fails_title_iff {n : Node} : Fails (T.title n) ↔ Fails (T.split n) :=
  exists_congr fun _ => title_eq_error_iff

/-- The parents for which a path can leave `n`. -/
def freshParents (T : Taxonomy) (onPath : List NodeKey) (n : Node) : List Node :=
  (T.realParents n).filter fun p => p.key ∉ onPath

theorem mem_freshParents {onPath : List NodeKey} {n p : Node} :
    p ∈ T.freshParents onPath n ↔ T.RealParent n p ∧ p.key ∉ onPath := by
  rw [freshParents, List.mem_filter, mem_realParents_iff, decide_eq_true_iff]

/-- The title paths of a node from those of its fresh parents. -/
def extendPaths (title : String) : List (List String) → List (List String)
  | [] => [[title]]
  | path :: paths => (path :: paths).map (· ++ [title])

theorem mem_extendPaths {title : String} {paths : List (List String)} {l : List String} :
    l ∈ extendPaths title paths ↔
      (paths = [] ∧ l = [title]) ∨ ∃ above ∈ paths, l = above ++ [title] := by
  cases paths with
  | nil => simp [extendPaths]
  | cons path paths =>
    rw [extendPaths, List.mem_map]
    constructor
    · rintro ⟨above, habove, rfl⟩
      exact Or.inr ⟨above, habove, rfl⟩
    · rintro (⟨h, -⟩ | ⟨above, habove, rfl⟩)
      · cases h
      · exact ⟨above, habove, rfl⟩

theorem titlePaths_eq (onPath : List NodeKey) (n : Node) :
    T.titlePaths onPath n = (do
      let title ← T.title n
      let above ← (T.freshParents onPath n).mapM fun p => T.titlePaths (p.key :: onPath) p
      return extendPaths title above.flatten) := by
  rw [titlePaths]
  simp only [List.mapM_subtype, List.unattach_attach]
  refine bind_congr fun title => bind_congr fun above => ?_
  cases above.flatten <;> rfl

theorem titlePaths_eq_ok_iff {onPath : List NodeKey} {n : Node} {paths : List (List String)} :
    T.titlePaths onPath n = .ok paths ↔ ∃ title above, T.title n = .ok title ∧
      (T.freshParents onPath n).mapM (fun p => T.titlePaths (p.key :: onPath) p) = .ok above ∧
      extendPaths title above.flatten = paths := by
  rw [titlePaths_eq, bind_eq_ok_iff]
  refine exists_congr fun title => ?_
  rw [exists_and_left, bind_eq_ok_iff]
  simp only [pure_eq_ok_iff]

theorem mapM_title_cons {n : Node} {path : List Node} {title : String} {l : List String}
    (hn : T.title n = .ok title) (hl : path.reverse.mapM T.title = .ok l) :
    (n :: path).reverse.mapM T.title = .ok (l ++ [title]) := by
  have hsingle : [n].mapM T.title = .ok [title] := mapM_eq_ok_iff.2 (.cons hn .nil)
  rw [List.reverse_cons]
  exact mapM_append_eq_ok_iff.2 ⟨l, [title], hl, hsingle, rfl⟩

/-- Every climb has a title path. -/
theorem titlePaths_complete {onPath : List NodeKey} {n : Node} {paths : List (List String)}
    (h : T.titlePaths onPath n = .ok paths) {path : List Node} (hpath : T.Climb onPath n path) :
    ∃ l ∈ paths, path.reverse.mapM T.title = .ok l := by
  induction hpath generalizing paths with
  | @root onPath n stuck =>
    obtain ⟨title, above, htitle, habove, rfl⟩ := titlePaths_eq_ok_iff.1 h
    have hnone : T.freshParents onPath n = [] := by
      refine List.eq_nil_iff_forall_not_mem.2 fun p hp => ?_
      obtain ⟨hp, hkey⟩ := mem_freshParents.1 hp
      exact hkey (stuck p hp)
    rw [hnone, mapM_eq_ok_iff, List.forall₂_nil_left_iff] at habove
    subst habove
    exact ⟨[title], List.mem_singleton_self _, mapM_eq_ok_iff.2 (.cons htitle .nil)⟩
  | @step onPath n p path parent fresh rest ih =>
    obtain ⟨title, above, htitle, habove, rfl⟩ := titlePaths_eq_ok_iff.1 h
    obtain ⟨result, hresult, hp⟩ :=
      exists_mem_mapM_of_mem habove (mem_freshParents.2 ⟨parent, fresh⟩)
    obtain ⟨l, hl, htitles⟩ := ih hp
    have hmem : l ∈ above.flatten := List.mem_flatten.2 ⟨result, hresult, hl⟩
    exact ⟨l ++ [title], mem_extendPaths.2 (Or.inr ⟨l, hmem, rfl⟩), mapM_title_cons htitle htitles⟩

/-- Every title path is that of a climb. -/
theorem titlePaths_sound {onPath : List NodeKey} {n : Node} {paths : List (List String)}
    (h : T.titlePaths onPath n = .ok paths) {l : List String} (hl : l ∈ paths) :
    ∃ path, T.Climb onPath n path ∧ path.reverse.mapM T.title = .ok l := by
  induction onPath, n using climb_induction (T := T) generalizing paths l with
  | h onPath n ih =>
    obtain ⟨title, above, htitle, habove, rfl⟩ := titlePaths_eq_ok_iff.1 h
    rcases mem_extendPaths.1 hl with ⟨hempty, rfl⟩ | ⟨l, hflat, rfl⟩
    · refine ⟨[n], .root fun p hp => ?_, mapM_eq_ok_iff.2 (.cons htitle .nil)⟩
      -- a fresh parent would have a climb, and so a title path to extend
      by_contra hkey
      obtain ⟨result, hresult, hp'⟩ := exists_mem_mapM_of_mem habove (mem_freshParents.2 ⟨hp, hkey⟩)
      obtain ⟨path, hpath⟩ := exists_climb (T := T) (p.key :: onPath) p
      obtain ⟨l, hl, -⟩ := titlePaths_complete hp' hpath
      have hmem : l ∈ above.flatten := List.mem_flatten.2 ⟨result, hresult, hl⟩
      rw [hempty] at hmem
      cases hmem
    · obtain ⟨result, hresult, hl'⟩ := List.mem_flatten.1 hflat
      obtain ⟨p, hp, hp'⟩ := exists_mem_of_mem_mapM habove hresult
      obtain ⟨hparent, hkey⟩ := mem_freshParents.1 hp
      obtain ⟨path, hpath, htitles⟩ := ih p hparent hkey hp' hl'
      exact ⟨n :: path, .step hparent hkey hpath, mapM_title_cons htitle htitles⟩

/-! ## Maximal paths -/

/-- A path upwards from `n` along real parents, without repetition, that no parent extends. -/
structure AncestorPath (T : Taxonomy) (n : Node) (path : List Node) : Prop where
  head_eq : path.head? = some n
  steps : path.IsChain T.RealParent
  nodup : path.Nodup
  maximal : ∀ last ∈ path.getLast?, ∀ p, T.RealParent last p → p ∈ path

/-- A way upwards from `n` over `rest`, around the nodes `before`, that only these or itself stop. -/
structure PathAround (T : Taxonomy) (before : List Node) (n : Node) (rest : List Node) : Prop where
  steps : (n :: rest).IsChain T.RealParent
  nodup : rest.Nodup
  around : ∀ m ∈ rest, m ∉ before
  maximal : ∀ last ∈ (n :: rest).getLast?, ∀ p, T.RealParent last p → p ∈ before ∨ p ∈ rest

theorem PathAround.nil {before : List Node} {n : Node}
    (stuck : ∀ p, T.RealParent n p → p ∈ before) : T.PathAround before n [] := by
  refine ⟨.singleton n, List.nodup_nil, fun _ h => (List.not_mem_nil h).elim, ?_⟩
  intro last hlast p hp
  obtain rfl : n = last := Option.some.inj hlast
  exact Or.inl (stuck p hp)

theorem RealParent.key_mem_iff {n p : Node} (h : T.RealParent n p) (hT : T.store.Unambiguous)
    {before : List Node} (hbefore : ∀ m ∈ before, m.term.Identifiable) :
    p.key ∈ before.map Node.key ↔ p ∈ before := by
  refine ⟨fun hp => ?_, List.mem_map_of_mem⟩
  obtain ⟨q, hq, hqp⟩ := List.mem_map.1 hp
  exact (Node.key_inj (hbefore q hq) (h.identifiable_right hT)).1 hqp ▸ hq

theorem Climb.pathAround (hT : T.store.Unambiguous) {onPath : List NodeKey} {n : Node}
    {path : List Node} (h : T.Climb onPath n path) {before : List Node}
    (hbefore : ∀ m ∈ before, m.term.Identifiable) (hkeys : onPath = before.map Node.key) :
    ∃ rest, path = n :: rest ∧ T.PathAround before n rest := by
  induction h generalizing before with
  | @root onPath n stuck =>
    subst hkeys
    exact ⟨[], rfl, .nil fun p hp => (hp.key_mem_iff hT hbefore).1 (stuck p hp)⟩
  | @step onPath n p path parent fresh climb ih =>
    subst hkeys
    have hbefore' : ∀ m ∈ p :: before, m.term.Identifiable := by
      intro m hm
      rcases List.mem_cons.1 hm with rfl | hm
      · exact parent.identifiable_right hT
      · exact hbefore m hm
    obtain ⟨rest, rfl, hrest⟩ := ih hbefore' rfl
    have hp : p ∉ before := fun h => fresh ((parent.key_mem_iff hT hbefore).2 h)
    refine ⟨p :: rest, rfl, hrest.steps.cons_cons parent, ?_, ?_, ?_⟩
    · exact List.nodup_cons.2 ⟨fun h => hrest.around p h List.mem_cons_self, hrest.nodup⟩
    · intro m hm
      rcases List.mem_cons.1 hm with rfl | hm
      · exact hp
      · exact fun h => hrest.around m hm (List.mem_cons_of_mem p h)
    · intro last hlast q hq
      rw [List.getLast?_cons_cons] at hlast
      rcases hrest.maximal last hlast q hq with h | h
      · rcases List.mem_cons.1 h with rfl | h
        · exact Or.inr List.mem_cons_self
        · exact Or.inl h
      · exact Or.inr (List.mem_cons_of_mem p h)

theorem PathAround.climb (hT : T.store.Unambiguous) {before : List Node} {n : Node}
    {rest : List Node} (h : T.PathAround before n rest)
    (hbefore : ∀ m ∈ before, m.term.Identifiable) :
    T.Climb (before.map Node.key) n (n :: rest) := by
  induction rest generalizing before n with
  | nil =>
    refine .root fun p hp => ?_
    rcases h.maximal n rfl p hp with hp' | hp'
    · exact List.mem_map_of_mem hp'
    · cases hp'
  | cons q rest ih =>
    obtain ⟨parent, hsteps⟩ := List.isChain_cons_cons.1 h.steps
    obtain ⟨hq, hnodup⟩ := List.nodup_cons.1 h.nodup
    have hbefore' : ∀ m ∈ q :: before, m.term.Identifiable := by
      intro m hm
      rcases List.mem_cons.1 hm with rfl | hm
      · exact parent.identifiable_right hT
      · exact hbefore m hm
    have hfresh : q.key ∉ before.map Node.key := by
      rw [parent.key_mem_iff hT hbefore]
      exact h.around q List.mem_cons_self
    have hrest : T.PathAround (q :: before) q rest := by
      refine ⟨hsteps, hnodup, ?_, ?_⟩
      · intro m hm hmem
        rcases List.mem_cons.1 hmem with rfl | hmem
        · exact hq hm
        · exact h.around m (List.mem_cons_of_mem q hm) hmem
      · intro last hlast p hp
        rw [← List.getLast?_cons_cons (a := n)] at hlast
        rcases h.maximal last hlast p hp with hp' | hp'
        · exact Or.inl (List.mem_cons_of_mem q hp')
        · rcases List.mem_cons.1 hp' with rfl | hp'
          · exact Or.inl List.mem_cons_self
          · exact Or.inr hp'
    exact .step parent hfresh (ih hrest hbefore')

theorem ancestorPath_iff {n : Node} {path : List Node} :
    T.AncestorPath n path ↔ ∃ rest, path = n :: rest ∧ T.PathAround [n] n rest := by
  constructor
  · rintro ⟨hhead, hsteps, hnodup, hmax⟩
    obtain ⟨rest, rfl⟩ := List.head?_eq_some_iff.1 hhead
    obtain ⟨hn, hrest⟩ := List.nodup_cons.1 hnodup
    refine ⟨rest, rfl, hsteps, hrest, ?_, ?_⟩
    · intro m hm hmem
      exact hn (List.mem_singleton.1 hmem ▸ hm)
    · intro last hlast p hp
      exact List.mem_append.1 (hmax last hlast p hp : p ∈ [n] ++ rest)
  · rintro ⟨rest, rfl, h⟩
    refine ⟨rfl, h.steps, ?_, ?_⟩
    · exact List.nodup_cons.2 ⟨fun hn => h.around n hn (List.mem_singleton_self n), h.nodup⟩
    · intro last hlast p hp
      have hmem : p ∈ [n] ++ rest := List.mem_append.2 (h.maximal last hlast p hp)
      exact hmem

theorem climb_iff_ancestorPath (hT : T.store.Unambiguous) {n : Node} {path : List Node} :
    T.Climb [n.key] n path ↔ T.AncestorPath n path := by
  rw [ancestorPath_iff]
  by_cases hn : n.term.Identifiable
  · have hbefore : ∀ m ∈ [n], m.term.Identifiable := by
      intro m hm
      exact List.mem_singleton.1 hm ▸ hn
    constructor
    · exact fun h => h.pathAround hT hbefore rfl
    · rintro ⟨rest, rfl, h⟩
      exact h.climb hT hbefore
  · -- without facts of its own `n` has no parents, and either side is the path `[n]`
    have hnone : ∀ p, ¬ T.RealParent n p := fun p hp => hn (hp.identifiable_left hT)
    constructor
    · rintro (_ | ⟨parent, -, -⟩)
      · exact ⟨[], rfl, .nil fun p hp => absurd hp (hnone p)⟩
      · exact absurd parent (hnone _)
    · rintro ⟨rest, rfl, h⟩
      cases rest with
      | nil => exact .root fun p hp => absurd hp (hnone p)
      | cons q rest => exact absurd (List.isChain_cons_cons.1 h.steps).1 (hnone q)

/-! ## Lineages -/

theorem lineages_eq_ok_iff {n : Node} {lineages : List (List String)} :
    T.lineages n = .ok lineages ↔ ∃ paths, T.titlePaths [n.key] n = .ok paths ∧
      sortWith (lexicographic compareText) (distinct paths) = lineages := by
  rw [Taxonomy.lineages, bind_eq_ok_iff]
  simp only [pure_eq_ok_iff]

theorem mem_lineages_iff {paths : List (List String)} {l : List String} :
    l ∈ sortWith (lexicographic compareText) (distinct paths) ↔ l ∈ paths := by
  rw [mem_sortWith, mem_distinct]

/-- The lineages of a node are the titles of its climbs. -/
theorem lineages_complete {n : Node} {lineages : List (List String)}
    (h : T.lineages n = .ok lineages) {path : List Node} (hpath : T.Climb [n.key] n path) :
    ∃ l ∈ lineages, path.reverse.mapM T.title = .ok l := by
  obtain ⟨paths, hpaths, rfl⟩ := lineages_eq_ok_iff.1 h
  obtain ⟨l, hl, htitles⟩ := titlePaths_complete hpaths hpath
  exact ⟨l, mem_lineages_iff.2 hl, htitles⟩

theorem lineages_ne_nil {n : Node} {lineages : List (List String)}
    (h : T.lineages n = .ok lineages) : lineages ≠ [] := by
  obtain ⟨path, hpath⟩ := exists_climb (T := T) [n.key] n
  obtain ⟨l, hl, -⟩ := lineages_complete h hpath
  exact List.ne_nil_of_mem hl

theorem lineages_sound {n : Node} {lineages : List (List String)}
    (h : T.lineages n = .ok lineages) {l : List String} (hl : l ∈ lineages) :
    ∃ path, T.Climb [n.key] n path ∧ path.reverse.mapM T.title = .ok l := by
  obtain ⟨paths, hpaths, rfl⟩ := lineages_eq_ok_iff.1 h
  exact titlePaths_sound hpaths (mem_lineages_iff.1 hl)

theorem nodup_lineages {n : Node} {lineages : List (List String)}
    (h : T.lineages n = .ok lineages) : lineages.Nodup := by
  obtain ⟨paths, -, rfl⟩ := lineages_eq_ok_iff.1 h
  exact (perm_sortWith _ _).nodup_iff.2 (nodup_distinct paths)

theorem kind_and_subject_of_mem_steps {n m : Node} {rest : List Node}
    (h : (n :: rest).IsChain T.RealParent) (hm : m ∈ rest) :
    m.kind = n.kind ∧ T.store.hasSubject m.term := by
  induction rest generalizing n with
  | nil => cases hm
  | cons q rest ih =>
    obtain ⟨hq, hrest⟩ := List.isChain_cons_cons.1 h
    rcases List.mem_cons.1 hm with rfl | hm
    · exact ⟨hq.kind_eq, hq.hasSubject⟩
    · obtain ⟨hkind, hsubject⟩ := ih hrest hm
      exact ⟨hkind.trans hq.kind_eq, hsubject⟩

/-- Behind its first node a path has distinct subjects of the store. -/
theorem AncestorPath.length_le {n : Node} {path : List Node} (h : T.AncestorPath n path) :
    path.length ≤ 1 + (distinct (T.store.triples.map Triple.subject)).length := by
  obtain ⟨rest, rfl, hrest⟩ := ancestorPath_iff.1 h
  have hle := Store.length_le_of_subjects hrest.nodup fun _ hm =>
    kind_and_subject_of_mem_steps hrest.steps hm
  rw [List.length_cons]
  omega

/-! ## The loop with an exit -/

theorem title_loopWithExit_A :
    loopWithExit.title (.ofClass (.iri "http://x/o#A")) = .ok "A" := by decide +kernel

theorem title_loopWithExit_B :
    loopWithExit.title (.ofClass (.iri "http://x/o#B")) = .ok "B" := by decide

theorem title_loopWithExit_D :
    loopWithExit.title (.ofClass (.iri "http://x/o#D")) = .ok "D" := by decide

theorem lineages_loopWithExit_A :
    loopWithExit.lineages (.ofClass (.iri "http://x/o#A")) = .ok [["D", "B", "A"]] := by
  let A : Node := .ofClass (.iri "http://x/o#A")
  let B : Node := .ofClass (.iri "http://x/o#B")
  let D : Node := .ofClass (.iri "http://x/o#D")
  have hfreshA : loopWithExit.freshParents [A.key] A = [B] := by decide +kernel
  have hfreshB : loopWithExit.freshParents [B.key, A.key] B = [D] := by decide +kernel
  have hfreshD : loopWithExit.freshParents [D.key, B.key, A.key] D = [] := by decide +kernel
  have hD : loopWithExit.titlePaths [D.key, B.key, A.key] D = .ok [["D"]] := by
    refine titlePaths_eq_ok_iff.2 ⟨"D", [], title_loopWithExit_D, ?_, rfl⟩
    rw [hfreshD]
    rfl
  have hB : loopWithExit.titlePaths [B.key, A.key] B = .ok [["D", "B"]] := by
    refine titlePaths_eq_ok_iff.2 ⟨"B", [[["D"]]], title_loopWithExit_B, ?_, rfl⟩
    rw [hfreshB]
    exact mapM_eq_ok_iff.2 (.cons hD .nil)
  have hA : loopWithExit.titlePaths [A.key] A = .ok [["D", "B", "A"]] := by
    refine titlePaths_eq_ok_iff.2 ⟨"A", [[["D", "B"]]], title_loopWithExit_A, ?_, rfl⟩
    rw [hfreshA]
    exact mapM_eq_ok_iff.2 (.cons hB .nil)
  exact lineages_eq_ok_iff.2 ⟨_, hA, by decide +kernel⟩

/-! ## The main result -/

/-- **The lineages of a class are its maximal simple ancestor paths**, on every graph: each lineage
gives the titles of such a path, root first, and each such path gives a lineage. There is one, and
none is longer than the number of subjects and one more. -/
theorem lineages_maximal_ancestor_paths (T : Taxonomy) (hT : T.store.Unambiguous) (c : Term)
    {lineages : List (List String)} (h : T.lineages (.ofClass c) = .ok lineages) :
    (∀ l ∈ lineages, ∃ path, T.AncestorPath (.ofClass c) path ∧
        path.reverse.mapM T.title = .ok l) ∧
      (∀ path, T.AncestorPath (.ofClass c) path → ∃ l ∈ lineages,
        path.reverse.mapM T.title = .ok l) ∧
      lineages.Nodup ∧ lineages ≠ [] ∧
      ∀ l ∈ lineages, l.length ≤ 1 + (distinct (T.store.triples.map Triple.subject)).length := by
  have hsound : ∀ l ∈ lineages, ∃ path, T.AncestorPath (.ofClass c) path ∧
      path.reverse.mapM T.title = .ok l := by
    intro l hl
    obtain ⟨path, hpath, htitles⟩ := lineages_sound h hl
    exact ⟨path, (climb_iff_ancestorPath hT).1 hpath, htitles⟩
  refine ⟨hsound, fun path hpath => ?_, nodup_lineages h, ?_, fun l hl => ?_⟩
  · exact lineages_complete h ((climb_iff_ancestorPath hT).2 hpath)
  · obtain ⟨path, hpath⟩ := exists_climb (T := T) [(Node.ofClass c).key] (.ofClass c)
    obtain ⟨l, hl, -⟩ := lineages_complete h hpath
    exact List.ne_nil_of_mem hl
  · obtain ⟨path, hpath, htitles⟩ := hsound l hl
    have hlength := (mapM_eq_ok_iff.1 htitles).length_eq
    rw [List.length_reverse] at hlength
    rw [← hlength]
    exact hpath.length_le

/-- Behind its loop `A` has the one lineage over the exit. -/
theorem loopWithExit_lineage :
    loopWithExit.store.Unambiguous ∧
      loopWithExit.lineages (.ofClass (.iri "http://x/o#A")) = .ok [["D", "B", "A"]] ∧
      ∀ path, loopWithExit.AncestorPath (.ofClass (.iri "http://x/o#A")) path →
        path.reverse.mapM loopWithExit.title = .ok ["D", "B", "A"] := by
  have hT : loopWithExit.store.Unambiguous := by decide
  have hpaths := lineages_maximal_ancestor_paths loopWithExit hT _ lineages_loopWithExit_A
  refine ⟨hT, lineages_loopWithExit_A, fun path hpath => ?_⟩
  obtain ⟨l, hl, htitles⟩ := hpaths.2.1 path hpath
  rw [List.mem_singleton.1 hl] at htitles
  exact htitles

end TaxonomyPress.Taxonomy
