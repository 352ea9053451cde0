import TaxonomyPress.Proofs.Descendants
import TaxonomyPress.Proofs.Inheritance
import TaxonomyPress.Proofs.Lineages

/-!
# Walks do not depend on what a node is known by

A walk asks of a key only whether it has met it before. So two keys that tell the same nodes apart lead
the same way, and on a store without ambiguous terms the key of a node does for a walk what its term does.

* `Steps.SameVisits` : steps that differ only in the keys, which tell the same nodes apart; then walks
  (`SameVisits.reached_eq`) and chains (`SameVisits.firstChain_eq`) are the same;
* `Taxonomy.ancestorsBy`, `descendantsBy`, `allPropertiesBy`, `canonicalIdBy`, `lineagesBy` : what the
  walks of a taxonomy find when they note a mark of each visited node; with the key as the mark they
  are the walks themselves (`lineagesBy_key`, the others by definition);
* `TellsApart` : no two identifiable nodes of one kind have the same mark; so it is with keys and with
  terms;
* `Taxonomy.node_keys_identify` : so keys may be replaced by terms.
-/

namespace TaxonomyPress

/-! ## Steps with other keys -/

namespace Steps

variable {α κ κ' : Type} {s : Steps α κ} {s' : Steps α κ'} {P : α → Prop}

/-- The same steps, with keys that tell the same nodes of `P` apart, which no step leaves. -/
structure SameVisits (s : Steps α κ) (s' : Steps α κ') (P : α → Prop) : Prop where
  next_eq : s'.next = s.next
  key_iff : ∀ x y, P x → P y → (s'.key x = s'.key y ↔ s.key x = s.key y)
  closed : ∀ x, P x → ∀ y ∈ s.next x, P y

namespace SameVisits

theorem firstOnly (h : s.SameVisits s' P) : s.firstOnly.SameVisits s'.firstOnly P where
  next_eq := by
    funext x
    show (s'.next x).head?.toList = (s.next x).head?.toList
    rw [h.next_eq]
  key_iff := h.key_iff
  closed x hx y hy := h.closed x hx y (List.mem_of_mem_head? (Option.mem_toList.1 hy))

theorem key_mem_iff (h : s.SameVisits s' P) {visited : List α} (hvisited : ∀ x ∈ visited, P x) {x : α}
    (hx : P x) : s'.key x ∈ visited.map s'.key ↔ s.key x ∈ visited.map s.key := by
  rw [List.mem_map, List.mem_map]
  exact exists_congr fun y => and_congr_right fun hy => h.key_iff y x (hvisited y hy) hx

variable [DecidableEq κ] [DecidableEq κ']

/-- Walks that have visited the same nodes go on in the same way. -/
theorem breadthFirst_eq (h : s.SameVisits s' P) {visited queue : List α}
    (hvisited : ∀ x ∈ visited, P x) (hqueue : ∀ x ∈ queue, P x) :
    s'.breadthFirst (visited.map s'.key) queue = s.breadthFirst (visited.map s.key) queue := by
  generalize hseen : visited.map s.key = seen
  fun_induction breadthFirst s seen queue generalizing visited with
  | case1 => rw [breadthFirst]
  | case2 seen x queue hx ih =>
    subst hseen
    obtain ⟨hPx, hrest⟩ := List.forall_mem_cons.1 hqueue
    rw [breadthFirst, dif_pos ((h.key_mem_iff hvisited hPx).2 hx)]
    exact ih hvisited hrest rfl
  | case3 seen x queue hx ih =>
    subst hseen
    obtain ⟨hPx, hrest⟩ := List.forall_mem_cons.1 hqueue
    rw [breadthFirst, dif_neg (mt (h.key_mem_iff hvisited hPx).1 hx), h.next_eq, ← List.map_cons]
    refine congrArg (List.cons x) (ih (List.forall_mem_cons.2 ⟨hPx, hvisited⟩) ?_ rfl)
    intro y hy
    rcases List.mem_append.1 hy with hy | hy
    · exact hrest y hy
    · exact h.closed x hPx y hy

theorem reached_eq (h : s.SameVisits s' P) {start : α} (hstart : P start ∨ s.next start = []) :
    s'.reached start = s.reached start := by
  rcases hstart with hstart | hnone
  · rw [reached, reached, h.next_eq]
    exact h.breadthFirst_eq (List.forall_mem_singleton.2 hstart) (h.closed start hstart)
  · rw [reached_of_next_eq_nil hnone, reached_of_next_eq_nil (h.next_eq ▸ hnone)]

theorem firstChain_eq (h : s.SameVisits s' P) {start : α} (hstart : P start ∨ s.next start = []) :
    s'.firstChain [s'.key start] start = s.firstChain [s.key start] start := by
  rw [firstChain_eq_breadthFirst, firstChain_eq_breadthFirst]
  refine h.firstOnly.reached_eq (hstart.imp_right fun hnone => ?_)
  show (s.next start).head?.toList = []
  rw [hnone]
  rfl

end SameVisits

end Steps

/-! ## Walks that note another mark -/

namespace Taxonomy

section

variable (T : Taxonomy) {κ : Type} (mark : Node → κ)

theorem exists_marks_realParents : ∃ marks : List κ, ∀ n, ∀ p ∈ T.realParents n, mark p ∈ marks := by
  refine ⟨(T.store.terms.flatMap fun t => [.ofClass t, .ofProperty t]).map mark, fun n p hp => ?_⟩
  obtain ⟨kind, term⟩ := p
  have hterm : term ∈ T.store.terms :=
    Store.object_mem_terms (mem_realTargets.1 (mem_realParents.1 hp).2).1
  refine List.mem_map_of_mem (List.mem_flatMap.2 ⟨term, hterm, ?_⟩)
  cases kind with
  | classNode => exact List.mem_cons_self
  | propertyNode => exact List.mem_cons_of_mem _ (List.mem_singleton_self _)

theorem exists_marks_below : ∃ marks : List κ, ∀ n, ∀ m ∈ T.below n, mark m ∈ marks := by
  refine ⟨(T.store.terms.map .ofClass).map mark, fun n m hm => ?_⟩
  obtain ⟨hkind, hm⟩ := mem_below_iff.1 hm
  refine List.mem_map_of_mem (List.mem_map.2 ⟨m.term, ?_, Node.ofClass_term hkind⟩)
  exact hm.elim Store.subject_mem_terms Store.subject_mem_terms

/-- `parentSteps` for walks that note the marks of what they visit. -/
def parentStepsBy : Steps Node κ := ⟨T.realParents, mark, T.exists_marks_realParents mark⟩

/-- `memberSteps` for such walks. -/
def memberStepsBy : Steps Node κ := ⟨T.below, mark, T.exists_marks_below mark⟩

variable [DecidableEq κ]

def ancestorsBy (n : Node) : List Node := (T.parentStepsBy mark).reached n

def descendantsBy (n : Node) : List Node := (T.memberStepsBy mark).reached n

/-- `sortNodes` on one node for each mark. -/
def sortNodesBy (nodes : List Node) : List Node :=
  (sortWith compareNamed ((distinctBy mark nodes).map fun n => (T.compactId n, n))).map (·.2)

def declaredPropertiesBy (n : Node) : List Node :=
  T.sortNodesBy mark ((T.store.subjects Rdfs.domain n.term).map Node.ofProperty)

def allPropertiesBy (n : Node) : List Node :=
  T.sortNodesBy mark
    ((T.ancestorsBy mark n).flatMap (T.declaredPropertiesBy mark) ++ T.declaredPropertiesBy mark n)

def firstParentsBy (n : Node) : List Node := (T.parentStepsBy mark).firstChain [mark n] n

def canonicalTitlesBy (n : Node) : Except MalformedIdentifier (List String) := do
  let title ← T.title n
  let above ← (T.firstParentsBy mark n).mapM T.title
  return above.reverse ++ [title]

def canonicalIdBy (n : Node) : Except MalformedIdentifier String := do
  let (front, _) ← T.split n
  let titles ← T.canonicalTitlesBy mark n
  return front ++ ":" ++ Text.join "/" titles

/-- `titlePaths` with the marks of the path in `onPath`. -/
def titlePathsBy (onPath : List κ) (n : Node) : Except MalformedIdentifier (List (List String)) := do
  let title ← T.title n
  let above ← ((T.realParents n).filter fun p => mark p ∉ onPath).attach.mapM fun ⟨p, _h⟩ =>
    titlePathsBy (mark p :: onPath) p
  match above.flatten with
  | [] => return [[title]]
  | paths => return paths.map (· ++ [title])
termination_by remaining (T.parentStepsBy mark).keys onPath
decreasing_by
  obtain ⟨hp, hmark⟩ := List.mem_filter.1 _h
  exact remaining_cons_lt (Steps.key_mem_keys (s := T.parentStepsBy mark) hp)
    (of_decide_eq_true hmark)

def lineagesBy (n : Node) : Except MalformedIdentifier (List (List String)) := do
  let paths ← T.titlePathsBy mark [mark n] n
  return sortWith (lexicographic compareText) (distinct paths)

end

variable {T : Taxonomy} {κ κ' : Type} {mark : Node → κ} {mark' : Node → κ'}

/-- No two identifiable nodes of one kind have the same mark. -/
def TellsApart (mark : Node → κ) : Prop :=
  ∀ m n : Node, m.kind = n.kind → m.term.Identifiable → n.term.Identifiable →
    mark m = mark n → m = n

theorem tellsApart_key : TellsApart Node.key := fun _ _ _ hm hn h => (Node.key_inj hm hn).1 h

theorem tellsApart_term : TellsApart Node.term := by
  rintro ⟨kind, term⟩ ⟨kind', term'⟩ hkind - - hterm
  exact congr (congrArg Node.mk hkind) hterm

theorem TellsApart.mark_eq_iff (h : TellsApart mark) (h' : TellsApart mark') {m n : Node}
    (hkind : m.kind = n.kind) (hm : m.term.Identifiable) (hn : n.term.Identifiable) :
    mark' m = mark' n ↔ mark m = mark n := by
  constructor
  · intro heq
    exact congrArg mark (h' m n hkind hm hn heq)
  · intro heq
    exact congrArg mark' (h m n hkind hm hn heq)

theorem sameVisits_parentStepsBy (hT : T.store.Unambiguous) (h : TellsApart mark)
    (h' : TellsApart mark') (kind : NodeKind) :
    (T.parentStepsBy mark).SameVisits (T.parentStepsBy mark')
      fun n => n.kind = kind ∧ n.term.Identifiable where
  next_eq := rfl
  key_iff _ _ hm hn := h.mark_eq_iff h' (hm.1.trans hn.1.symm) hm.2 hn.2
  closed _ hn _ hp :=
    ⟨(mem_realParents.1 hp).1.trans hn.1, (mem_realParents_iff.1 hp).identifiable_right hT⟩

theorem sameVisits_memberStepsBy (hT : T.store.Unambiguous) (h : TellsApart mark)
    (h' : TellsApart mark') :
    (T.memberStepsBy mark).SameVisits (T.memberStepsBy mark')
      fun n => n.kind = .classNode ∧ n.term.Identifiable where
  next_eq := rfl
  key_iff _ _ hm hn := h.mark_eq_iff h' (hm.1.trans hn.1.symm) hm.2 hn.2
  closed _ _ _ hm := ⟨(mem_below_iff.1 hm).1, identifiable_of_mem_below hT hm⟩

variable [DecidableEq κ] [DecidableEq κ']

theorem ancestorsBy_eq (hT : T.store.Unambiguous) (h : TellsApart mark) (h' : TellsApart mark')
    (n : Node) : T.ancestorsBy mark' n = T.ancestorsBy mark n :=
  (sameVisits_parentStepsBy hT h h' n.kind).reached_eq
    ((identifiable_or_root hT n).imp_left fun hn => ⟨rfl, hn⟩)

theorem firstParentsBy_eq (hT : T.store.Unambiguous) (h : TellsApart mark) (h' : TellsApart mark')
    (n : Node) : T.firstParentsBy mark' n = T.firstParentsBy mark n :=
  (sameVisits_parentStepsBy hT h h' n.kind).firstChain_eq
    ((identifiable_or_root hT n).imp_left fun hn => ⟨rfl, hn⟩)

theorem descendantsBy_eq (hT : T.store.Unambiguous) (h : TellsApart mark) (h' : TellsApart mark')
    {c : Term} (hc : c.isResource) :
    T.descendantsBy mark' (.ofClass c) = T.descendantsBy mark (.ofClass c) :=
  (sameVisits_memberStepsBy hT h h').reached_eq
    ((identifiable_or_bottom hT hc).imp_left fun hn => ⟨rfl, hn⟩)

theorem canonicalIdBy_eq (hT : T.store.Unambiguous) (h : TellsApart mark) (h' : TellsApart mark')
    (n : Node) : T.canonicalIdBy mark' n = T.canonicalIdBy mark n := by
  unfold canonicalIdBy canonicalTitlesBy
  rw [firstParentsBy_eq hT h h']

/-! ## Properties -/

/-- Marks that tell the same nodes apart leave the same first ones. -/
theorem distinctBy_eq {nodes : List Node}
    (h : ∀ m ∈ nodes, ∀ n ∈ nodes, mark' m = mark' n ↔ mark m = mark n) :
    distinctBy mark' nodes = distinctBy mark nodes := by
  suffices hfrom : ∀ seen rest : List Node, seen ⊆ nodes → rest ⊆ nodes →
      distinctFrom mark' (seen.map mark') rest = distinctFrom mark (seen.map mark) rest from
    hfrom [] nodes (List.nil_subset _) (List.Subset.refl _)
  intro seen rest
  induction rest generalizing seen with
  | nil => exact fun _ _ => rfl
  | cons n rest ih =>
    intro hseen hrest
    obtain ⟨hn, hrest⟩ := List.cons_subset.1 hrest
    have hmem : mark' n ∈ seen.map mark' ↔ mark n ∈ seen.map mark := by
      rw [List.mem_map, List.mem_map]
      exact exists_congr fun m => and_congr_right fun hm => h m (hseen hm) n hn
    simp only [distinctFrom, hmem]
    rw [ih seen hseen hrest, ← List.map_cons, ← List.map_cons,
      ih (n :: seen) (List.cons_subset.2 ⟨hn, hseen⟩) hrest]

theorem sortNodesBy_eq (h : TellsApart mark) (h' : TellsApart mark') {kind : NodeKind}
    {nodes : List Node} (hnodes : ∀ n ∈ nodes, n.kind = kind ∧ n.term.Identifiable) :
    T.sortNodesBy mark' nodes = T.sortNodesBy mark nodes := by
  have hmarks : distinctBy mark' nodes = distinctBy mark nodes := distinctBy_eq fun m hm n hn =>
    h.mark_eq_iff h' ((hnodes m hm).1.trans (hnodes n hn).1.symm) (hnodes m hm).2 (hnodes n hn).2
  rw [sortNodesBy, sortNodesBy, hmarks]

theorem domain_subject_identifiable (hT : T.store.Unambiguous) {d : Term} {p : Node}
    (hp : p ∈ (T.store.subjects Rdfs.domain d).map Node.ofProperty) :
    p.kind = .propertyNode ∧ p.term.Identifiable :=
  ⟨(mem_map_domain_subjects.1 hp).1, hT.identifiable_subject (mem_map_domain_subjects.1 hp).2⟩

theorem declaredPropertiesBy_eq (hT : T.store.Unambiguous) (h : TellsApart mark) (n : Node) :
    T.declaredPropertiesBy mark n = T.declaredProperties n :=
  sortNodesBy_eq tellsApart_key h fun _ => domain_subject_identifiable hT

theorem allPropertiesBy_eq (hT : T.store.Unambiguous) (h : TellsApart mark) (n : Node) :
    T.allPropertiesBy mark n = T.allProperties n := by
  have hancestors : T.ancestorsBy mark n = T.ancestors n := ancestorsBy_eq hT tellsApart_key h n
  rw [allPropertiesBy, hancestors, funext (declaredPropertiesBy_eq hT h)]
  exact sortNodesBy_eq tellsApart_key h fun _ => collected_identifiable hT

/-! ## Title paths -/

/-- The parents with a mark that is not in `onPath`. -/
def freshParentsBy (T : Taxonomy) (mark : Node → κ) (onPath : List κ) (n : Node) : List Node :=
  (T.realParents n).filter fun p => mark p ∉ onPath

theorem titlePathsBy_eq (onPath : List κ) (n : Node) :
    T.titlePathsBy mark onPath n = (do
      let title ← T.title n
      let above ← (T.freshParentsBy mark onPath n).mapM fun p =>
        T.titlePathsBy mark (mark p :: onPath) p
      return extendPaths title above.flatten) := by
  rw [titlePathsBy]
  simp only [List.mapM_subtype, List.unattach_attach]
  refine bind_congr fun title => bind_congr fun above => ?_
  cases above.flatten <;> rfl

theorem titlePathsBy_key (onPath : List NodeKey) (n : Node) :
    T.titlePathsBy Node.key onPath n = T.titlePaths onPath n := by
  induction onPath, n using climb_induction (T := T) with
  | h onPath n ih =>
    rw [titlePathsBy_eq, titlePaths_eq]
    refine bind_congr fun title => congrArg (· >>= _) (mapM_congr fun p hp => ?_)
    obtain ⟨hparent, hkey⟩ := mem_freshParents.1 hp
    exact ih p hparent hkey

/-- Title paths around the same nodes are the same. -/
theorem titlePathsBy_map_eq (hT : T.store.Unambiguous) (h : TellsApart mark) (h' : TellsApart mark')
    (path : List Node) {n : Node} (hpath : ∀ m ∈ path, m.kind = n.kind ∧ m.term.Identifiable) :
    T.titlePathsBy mark' (path.map mark') n = T.titlePathsBy mark (path.map mark) n := by
  have hsame := sameVisits_parentStepsBy hT h h' n.kind
  have hkind {p : Node} (hp : p ∈ T.realParents n) : p.kind = n.kind := (mem_realParents.1 hp).1
  have hterm {p : Node} (hp : p ∈ T.realParents n) : p.term.Identifiable :=
    (mem_realParents_iff.1 hp).identifiable_right hT
  have hfresh : T.freshParentsBy mark' (path.map mark') n = T.freshParentsBy mark (path.map mark) n :=
    List.filter_congr fun p hp =>
      decide_eq_decide.2 (not_congr (hsame.key_mem_iff hpath ⟨hkind hp, hterm hp⟩))
  rw [titlePathsBy_eq, titlePathsBy_eq, hfresh]
  refine bind_congr fun title => congrArg (· >>= _) (mapM_congr fun p hp => ?_)
  obtain ⟨hparent, hmark⟩ := List.mem_filter.1 hp
  have hlt := remaining_cons_lt (Steps.key_mem_keys (s := T.parentStepsBy mark) hparent)
    (of_decide_eq_true hmark)
  exact titlePathsBy_map_eq hT h h' (p :: path) (List.forall_mem_cons.2
    ⟨⟨rfl, hterm hparent⟩, fun m hm => ⟨(hpath m hm).1.trans (hkind hparent).symm, (hpath m hm).2⟩⟩)
termination_by remaining (T.parentStepsBy mark).keys (path.map mark)

theorem titlePathsBy_of_root {n : Node} (h : T.realParents n = []) (onPath : List κ) :
    T.titlePathsBy mark onPath n = (do return [[← T.title n]]) := by
  rw [titlePathsBy_eq, freshParentsBy, h]
  rfl

theorem lineagesBy_eq (hT : T.store.Unambiguous) (h : TellsApart mark) (h' : TellsApart mark')
    (n : Node) : T.lineagesBy mark' n = T.lineagesBy mark n := by
  have hpaths : T.titlePathsBy mark' [mark' n] n = T.titlePathsBy mark [mark n] n := by
    rcases identifiable_or_root hT n with hn | hroot
    · exact titlePathsBy_map_eq hT h h' [n] (List.forall_mem_singleton.2 ⟨rfl, hn⟩)
    · rw [titlePathsBy_of_root hroot, titlePathsBy_of_root hroot]
  unfold lineagesBy
  rw [hpaths]

theorem lineagesBy_key (n : Node) : T.lineagesBy Node.key n = T.lineages n := by
  unfold lineagesBy lineages
  rw [titlePathsBy_key]

/-! ## Keys and terms -/

/-- **Keys identify nodes.** The parts of a key make up the identifier, so the key fixes it and the kind.
Of resources whose IRIs do not begin like a blank node it fixes the term. So on a store of such terms
walks that note terms instead of keys find the same, also where what they find is made distinct by
terms. -/
theorem node_keys_identify :
    (∀ (t : Term) (k : NodeKind),
        (Node.mk k t).key.namespaceIri ++ (Node.mk k t).key.localName = t.identifier) ∧
      (∀ (t t' : Term) (k k' : NodeKind), (Node.mk k t).key = (Node.mk k' t').key →
        k = k' ∧ t.identifier = t'.identifier) ∧
      (∀ (t t' : Term) (k k' : NodeKind), t.Identifiable → t'.Identifiable →
        ((Node.mk k t).key = (Node.mk k' t').key ↔ k = k' ∧ t = t')) ∧
      ∀ T : Taxonomy, T.store.Unambiguous →
        (∀ c : Term, c.isResource →
          T.descendantsBy Node.term (.ofClass c) = T.descendants (.ofClass c)) ∧
        (∀ n, T.ancestorsBy Node.term n = T.ancestors n) ∧
        (∀ n, T.sortNodes ((T.ancestorsBy Node.term n).flatMap T.declaredProperties ++
          T.declaredProperties n) = T.allProperties n) ∧
        (∀ n, T.allPropertiesBy Node.term n = T.allProperties n) ∧
        (∀ n, T.canonicalIdBy Node.term n = T.canonicalId n) ∧
        ∀ n, T.lineagesBy Node.term n = T.lineages n := by
  refine ⟨fun t k => Node.key_append _, fun t t' k k' => Node.identifier_eq_of_key_eq,
    fun t t' k k' ht ht' => ?_, fun T hT => ?_⟩
  · rw [Node.key_inj ht ht', Node.mk.injEq]
  · have hancestors (n : Node) : T.ancestorsBy Node.term n = T.ancestors n :=
      ancestorsBy_eq hT tellsApart_key tellsApart_term n
    refine ⟨fun c => descendantsBy_eq hT tellsApart_key tellsApart_term, hancestors, fun n => ?_,
      allPropertiesBy_eq hT tellsApart_term, canonicalIdBy_eq hT tellsApart_key tellsApart_term,
      fun n => ?_⟩
    · rw [hancestors]
      rfl
    · rw [lineagesBy_eq hT tellsApart_key tellsApart_term, lineagesBy_key]

/-- On the loop the way to the exit is found by terms too, and a blank node has a key of its own. -/
theorem loopWithExit_by_terms :
    loopWithExit.store.Unambiguous ∧
      loopWithExit.lineagesBy Node.term (.ofClass (.iri "http://x/o#A")) = .ok [["D", "B", "A"]] ∧
      (Term.iri "A").Identifiable ∧ (Term.blank "A").Identifiable ∧
      (Node.ofClass (.iri "A")).key ≠ (Node.ofClass (.blank "A")).key := by
  have hT : loopWithExit.store.Unambiguous := by decide
  have hiri : (Term.iri "A").Identifiable := ⟨rfl, by decide⟩
  have hblank : (Term.blank "A").Identifiable := ⟨rfl, nofun⟩
  obtain ⟨-, -, hkeys, hwalks⟩ := node_keys_identify
  obtain ⟨-, -, -, -, -, hlineages⟩ := hwalks loopWithExit hT
  refine ⟨hT, (hlineages _).trans lineages_loopWithExit_A, hiri, hblank, fun heq => ?_⟩
  cases ((hkeys _ _ _ _ hiri hblank).1 heq).2

-- an IRI that begins like a blank node has the key of one
example : (Node.ofClass (.iri "_:b")).key = (Node.ofClass (.blank "b")).key := by decide

end Taxonomy

end TaxonomyPress
