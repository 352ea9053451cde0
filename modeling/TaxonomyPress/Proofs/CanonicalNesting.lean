import TaxonomyPress.Proofs.CanonicalLineage

/-!
# Canonical identifiers along the chain of first parents

The canonical identifier of a node writes the nodes that first parents lead to, root first. Where their
chain ends at a root, the path of a node is the path of its first parent with one title more. On a loop
each node begins a chain of its own, and there the paths do not continue each other.

* `Taxonomy.ListsFirstParents` : a list leads along first parents and has all that they lead to, once each;
* `Taxonomy.listsFirstParents_firstParents` : the chain of every node is such a list;
* `Taxonomy.not_transGen_firstParent_self` : a node from which first parents lead to a root is on no loop;
* `Taxonomy.firstParents_eq_cons` : its chain is its first parent and the chain of this one;
* `Taxonomy.canonical_ids_nest` : so canonical identifiers write each node of the chain once, and nest.
-/

namespace TaxonomyPress

open Relation

/-- The chain of first nodes follows first steps. -/
theorem Steps.isChain_firstChain {α κ : Type} [DecidableEq κ] (s : Steps α κ) (seen : List κ) (x : α) :
    (x :: s.firstChain seen x).IsChain fun x y => (s.next x).head? = some y := by
  fun_induction firstChain s seen x with
  | case1 => exact .singleton _
  | case2 => exact .singleton _
  | case3 seen x y hy hseen ih => exact .cons_cons hy ih

/-- Where steps leave no choice, a loop has no way out. -/
theorem transGen_self_of_reflTransGen {α : Type} {r : α → α → Prop} (hr : Relator.RightUnique r)
    {a b : α} (ha : TransGen r a a) (hab : ReflTransGen r a b) : TransGen r b b := by
  induction hab with
  | refl => exact ha
  | tail _ hbc ih =>
    obtain ⟨d, hbd, hdb⟩ := TransGen.head'_iff.1 ih
    obtain rfl := hr hbc hbd
    exact TransGen.tail' hdb hbc

namespace Taxonomy

variable {T : Taxonomy} {n p : Node}

/-! ## The chain of a node -/

/-- `chain` leads from `n` to first parents and has all that they lead to, once each. -/
structure ListsFirstParents (T : Taxonomy) (n : Node) (chain : List Node) : Prop where
  head : chain.head? = some n
  isChain : chain.IsChain T.FirstParent
  nodup : chain.Nodup
  mem_iff : ∀ m, m ∈ chain ↔ ReflTransGen T.FirstParent n m

theorem listsFirstParents_firstParents (hT : T.store.Unambiguous) (n : Node) :
    T.ListsFirstParents n (n :: T.firstParents n) where
  head := rfl
  isChain := T.parentSteps.isChain_firstChain [n.key] n
  nodup := by
    have hself : n ∉ T.firstParents n := fun hmem => ((mem_firstParents_iff hT).1 hmem).1 rfl
    rw [List.nodup_cons, firstParents_eq_reached]
    exact ⟨firstParents_eq_reached n ▸ hself, Steps.nodup_reached n⟩
  mem_iff _ := mem_cons_firstParents_iff hT

theorem length_firstParents_le (hT : T.store.Unambiguous) (n : Node) :
    (T.firstParents n).length ≤ (distinct (T.store.triples.map Triple.subject)).length := by
  have hsubjects : ∀ m ∈ T.firstParents n, m.kind = n.kind ∧ T.store.hasSubject m.term := by
    intro m hm
    have hsteps : TransGen T.FirstParent n m := ((mem_firstParents_iff hT).1 hm).2
    have habove : T.Above n m := hsteps.lift id fun _ _ h => h.realParent
    obtain ⟨p, -, hp⟩ := TransGen.tail'_iff.1 hsteps
    exact ⟨habove.kind_eq, hp.realParent.hasSubject⟩
  exact Store.length_le_of_subjects (listsFirstParents_firstParents hT n).nodup.of_cons hsubjects

/-! ## Chains that end -/

theorem rightUnique_firstParent : Relator.RightUnique T.FirstParent :=
  fun _ _ _ hp hq => Option.some.inj (hp.symm.trans hq)

/-- First parents that lead to a root lead to no node twice. -/
theorem not_transGen_firstParent_self {root : Node} (hn : ReflTransGen T.FirstParent n root)
    (hroot : T.realParents root = []) : ¬ TransGen T.FirstParent n n := by
  intro hloop
  have hrootLoop := transGen_self_of_reflTransGen rightUnique_firstParent hloop hn
  obtain ⟨p, hp, -⟩ := TransGen.head'_iff.1 hrootLoop
  rw [FirstParent, hroot] at hp
  cases hp

/-- The chain of a node that is on no loop goes on as that of its first parent. -/
theorem firstParents_eq_cons (hT : T.store.Unambiguous) (hp : T.FirstParent n p)
    (hloop : ¬ TransGen T.FirstParent n n) : T.firstParents n = p :: T.firstParents p := by
  have hidentifiable : ∀ {a b}, T.FirstParent a b → b.term.Identifiable :=
    fun h => h.realParent.identifiable_right hT
  have hkey : ∀ m, TransGen T.FirstParent n m → m.key ≠ n.key := by
    intro m hm heq
    obtain ⟨q, -, hq⟩ := TransGen.tail'_iff.1 hm
    have hn : n.term.Identifiable := hp.realParent.identifiable_left hT
    obtain rfl : m = n := (Node.key_inj (hidentifiable hq) hn).1 heq
    exact hloop hm
  -- Nothing that `p` leads to has the key of `n`: the walk from `p` need not know that `n` was seen.
  have hnext : T.parentSteps.firstOnly.next n = [p] := congrArg Option.toList hp
  rw [firstParents_eq_reached, firstParents_eq_reached]
  refine Steps.reached_of_next_eq_singleton hnext (hkey p (.single hp)) fun m hm => ?_
  rw [← firstParents_eq_reached, mem_firstParents_iff hT] at hm
  exact hkey m (.head hp hm.2)

/-! ## Identifiers -/

/-- The path of a node on no loop is that of its first parent with its own title behind it. -/
theorem canonicalId_of_firstParent (hT : T.store.Unambiguous) {title : String}
    {titles : List String} (htitle : T.title n = .ok title)
    (htitles : T.canonicalTitles n = .ok titles) (hp : T.FirstParent n p)
    (hloop : ¬ TransGen T.FirstParent n n) : ∃ front own path, T.split p = .ok (front, own) ∧
      T.canonicalId p = .ok (front ++ ":" ++ path) ∧
        Text.join "/" titles = path ++ "/" ++ title := by
  rw [canonicalTitles_eq_ok_iff, firstParents_eq_cons hT hp hloop, List.reverse_cons] at htitles
  obtain ⟨above, last, habove, hlast, rfl⟩ := mapM_append_eq_ok_iff.1 htitles
  obtain rfl : last = [title] := by
    have hsingle : [n].mapM T.title = .ok [title] := mapM_eq_ok_iff.2 (.cons htitle .nil)
    exact Except.ok.inj (hlast.symm.trans hsingle)
  have hcanonical : T.canonicalTitles p = .ok above := canonicalTitles_eq_ok_iff.2 habove
  obtain ⟨own, -, hown⟩ := exists_mem_mapM_of_mem habove (List.mem_reverse.2 List.mem_cons_self)
  obtain ⟨front, hsplit⟩ := title_eq_ok_iff.1 hown
  refine ⟨front, own, Text.join "/" above, hsplit, ?_, ?_⟩
  · exact canonicalId_eq_ok_iff.2 ⟨front, own, above, hsplit, hcanonical, rfl⟩
  · exact Text.join_concat (canonicalTitles_ne_nil hcanonical) title

/-! ## The main result -/

/-- **Canonical identifiers nest.** The canonical identifier of a class or of a property writes, behind
its own prefix, the title of each node that first parents lead to, once each, the root first and its own
last; there are no more of them than subjects and itself. If first parents lead to a root, the first
parent has a canonical identifier too, and the path of the node continues its path by one title. -/
theorem canonical_ids_nest (T : Taxonomy) (hT : T.store.Unambiguous) (n : Node) {id : String}
    (hid : T.canonicalId n = .ok id) :
    ∃ chain front title titles, T.ListsFirstParents n chain ∧
      chain.length ≤ (distinct (T.store.triples.map Triple.subject)).length + 1 ∧
      T.split n = .ok (front, title) ∧ chain.reverse.mapM T.title = .ok titles ∧
      id = front ++ ":" ++ Text.join "/" titles ∧
      ∀ root, ReflTransGen T.FirstParent n root → T.realParents root = [] →
        ∀ p, T.FirstParent n p → ∃ front' own path, T.split p = .ok (front', own) ∧
          T.canonicalId p = .ok (front' ++ ":" ++ path) ∧
          id = front ++ ":" ++ (path ++ "/" ++ title) := by
  obtain ⟨front, title, titles, hsplit, htitles, rfl⟩ := canonicalId_eq_ok_iff.1 hid
  refine ⟨n :: T.firstParents n, front, title, titles, listsFirstParents_firstParents hT n,
    Nat.succ_le_succ (length_firstParents_le hT n), hsplit, canonicalTitles_eq_ok_iff.1 htitles, rfl,
    fun root hn hroot p hp => ?_⟩
  have htitle : T.title n = .ok title := title_eq_ok_iff.2 ⟨front, hsplit⟩
  have hloop : ¬ TransGen T.FirstParent n n := not_transGen_firstParent_self hn hroot
  obtain ⟨front', own, path, hsplit', hid', hpath⟩ :=
    canonicalId_of_firstParent hT htitle htitles hp hloop
  exact ⟨front', own, path, hsplit', hid', by rw [hpath]⟩

/-- The names of houses are names, and those of cottages are names of houses. -/
def names : Taxonomy where
  store := .ofList
    [⟨.iri "http://x/o#cottageName", Rdfs.subPropertyOf, .iri "http://x/o#houseName"⟩,
     ⟨.iri "http://x/o#houseName", Rdfs.subPropertyOf, .iri "http://y/p#name"⟩,
     ⟨.iri "http://y/p#name", Rdfs.domain, .iri "http://x/o#House"⟩]
  namespaces := .empty

/-- The path of a cottage's name continues that of a house's name. -/
theorem names_nest :
    names.store.Unambiguous ∧
      names.canonicalId (.ofProperty (.iri "http://x/o#cottageName")) =
        .ok "o:name/houseName/cottageName" ∧
      names.realParents (.ofProperty (.iri "http://y/p#name")) = [] ∧
      names.canonicalId (.ofProperty (.iri "http://x/o#houseName")) = .ok "o:name/houseName" := by
  let name : Node := .ofProperty (.iri "http://y/p#name")
  let houseName : Node := .ofProperty (.iri "http://x/o#houseName")
  let cottageName : Node := .ofProperty (.iri "http://x/o#cottageName")
  have hT : names.store.Unambiguous := by decide
  have hroot : names.realParents name = [] := by decide +kernel
  have hhouse : (names.realParents houseName).head? = some name := by decide +kernel
  have hcottage : (names.realParents cottageName).head? = some houseName := by decide +kernel
  have hway : ReflTransGen names.FirstParent cottageName name := .head hcottage (.single hhouse)
  have hchain : names.firstParents cottageName = [houseName, name] := by
    rw [firstParents_eq_cons hT hcottage (not_transGen_firstParent_self hway hroot),
      firstParents_eq_cons hT hhouse (not_transGen_firstParent_self (.single hhouse) hroot),
      firstParents_of_root hroot]
  have hsplit : names.split cottageName = .ok ("o", "cottageName") := by decide
  have htitles : names.canonicalTitles cottageName = .ok ["name", "houseName", "cottageName"] := by
    rw [canonicalTitles_eq_ok_iff, hchain]
    decide
  have hid : names.canonicalId cottageName = .ok "o:name/houseName/cottageName" :=
    canonicalId_eq_ok_iff.2 ⟨"o", "cottageName", _, hsplit, htitles, by decide⟩
  obtain ⟨-, front, title, -, -, -, hsplit', -, -, hnest⟩ := canonical_ids_nest names hT cottageName hid
  obtain ⟨front', own, path, hown, hid', hpath⟩ := hnest name hway hroot houseName hcottage
  have hnames : ("o", "cottageName") = (front, title) := Except.ok.inj (hsplit.symm.trans hsplit')
  obtain ⟨rfl, rfl⟩ := Prod.mk.inj hnames
  have hsplitHouse : names.split houseName = .ok ("o", "houseName") := by decide
  obtain ⟨rfl, rfl⟩ := Prod.mk.inj (Except.ok.inj (hsplitHouse.symm.trans hown))
  refine ⟨hT, hid, hroot, hid'.trans (congrArg Except.ok ?_)⟩
  have hwhole : "o" ++ ":" ++ path ++ ("/" ++ "cottageName") =
      "o:name/houseName" ++ ("/" ++ "cottageName") := by
    calc "o" ++ ":" ++ path ++ ("/" ++ "cottageName")
        = "o" ++ ":" ++ (path ++ "/" ++ "cottageName") := by simp only [String.append_assoc]
      _ = "o:name/houseName/cottageName" := hpath.symm
      _ = "o:name/houseName" ++ ("/" ++ "cottageName") := by decide
  exact (String.append_left_inj _).1 hwhole

end Taxonomy

end TaxonomyPress
