import TaxonomyPress.Proofs.FragmentReading
import TaxonomyPress.Proofs.Levels
import TaxonomyPress.Proofs.StoreHistory

/-!
# What the fragment of a class covers

* `Taxonomy.Owns` : a class owns itself, the properties whose domain it is, and the blank nodes that
  chains of blank nodes lead to from those;
* `Taxonomy.mem_fragmentSubjects_iff` : the nodes of a fragment are the owned terms with facts;
* `Taxonomy.fragmentLevel` : the owned terms level by level, told apart by how long the chains to them
  are (`Taxonomy.mem_fragmentLevel_iff`);
* `Taxonomy.fragmentSubjects_eq_levels` : the nodes stand in that order, also if the chains come back;
* `Taxonomy.fragment_covers_owned` : all that, of the document.
-/

namespace TaxonomyPress

open Relation

theorem Store.outgoing_eq_filter (store : Store) (s : Term) :
    store.outgoing s = store.triples.filter (·.subject = s) := by
  rw [outgoing, matching_eq_filter]
  refine List.filter_congr fun t _ => ?_
  simp [Pattern.accepts, agrees]

namespace Taxonomy

variable {T : Taxonomy} {c x : Term} {k : Nat}

/-! ## What a class owns -/

/-- Some fact has `x` as its subject and the blank node `y` as its object. -/
def BlankFact (T : Taxonomy) (x y : Term) : Prop :=
  y.isBlank ∧ ∃ predicate, ⟨x, predicate, y⟩ ∈ T.store.triples

/-- The class itself and its properties. -/
def Seeds (T : Taxonomy) (c s : Term) : Prop := s = c ∨ ⟨s, Rdfs.domain, c⟩ ∈ T.store.triples

/-- A chain of facts, whose objects are all blank nodes, leads to `x` from the class `c` or from one
of its properties. -/
def Owns (T : Taxonomy) (c x : Term) : Prop := ∃ s, T.Seeds c s ∧ ReflTransGen T.BlankFact s x

theorem leads_blankSteps : T.blankSteps.Leads = T.BlankFact := by
  funext x y
  refine propext ?_
  show y ∈ T.blankObjects x ↔ T.BlankFact x y
  simp only [blankObjects, BlankFact, List.mem_filter, List.mem_map, Store.mem_outgoing]
  constructor
  · rintro ⟨⟨⟨s, p, o⟩, ⟨ht, rfl⟩, rfl⟩, hblank⟩
    exact ⟨hblank, p, ht⟩
  · rintro ⟨hblank, p, ht⟩
    exact ⟨⟨_, ⟨ht, rfl⟩, rfl⟩, hblank⟩

theorem faithfulOn_blankSteps : T.blankSteps.FaithfulOn fun _ => True where
  closed _ _ _ _ := trivial
  key_inj _ _ _ _ h := h

/-- Where the walk of a fragment starts. -/
def fragmentQueue (T : Taxonomy) (c : Term) : List Term := c :: T.store.subjects Rdfs.domain c

theorem mem_fragmentQueue_iff {s : Term} : s ∈ T.fragmentQueue c ↔ T.Seeds c s := by
  rw [fragmentQueue, List.mem_cons, Store.mem_subjects, Seeds]

/-- The walk of a fragment meets what the class owns. -/
theorem mem_breadthFirst_fragmentQueue :
    x ∈ T.blankSteps.breadthFirst [] (T.fragmentQueue c) ↔ T.Owns c x := by
  rw [Steps.mem_breadthFirst_iff faithfulOn_blankSteps fun _ _ => trivial]
  simp only [mem_fragmentQueue_iff, Steps.reflTransGen_fresh_nil, leads_blankSteps, Owns,
    List.not_mem_nil, not_false_eq_true, true_and]

/-- **The nodes of a fragment are what the class owns**, as far as there are facts about it. -/
theorem mem_fragmentSubjects_iff :
    x ∈ T.fragmentSubjects (.ofClass c) ↔ T.store.hasSubject x ∧ T.Owns c x := by
  show x ∈ (T.blankSteps.breadthFirst [] (T.fragmentQueue c)).filter T.store.hasSubject ↔ _
  rw [List.mem_filter, mem_breadthFirst_fragmentQueue, and_comm]

/-! ## In which order -/

/-- What the class `c` owns at the end of chains of `k` facts and of no shorter ones. -/
def fragmentLevel (T : Taxonomy) (c : Term) (k : Nat) : List Term :=
  T.blankSteps.level (T.fragmentQueue c) k

/-- The class and its properties, in the order of the graph. -/
theorem fragmentLevel_zero : T.fragmentLevel c 0 = distinct (c ::
    (T.store.triples.filter fun t => t.predicate = Rdfs.domain ∧ t.object = c).map (·.subject)) := by
  rw [← Store.subjects_eq_filter]
  rfl

/-- The blank nodes that facts about the level before have as objects, in the order of that level and
of the graph, without those that stand in an earlier level. -/
theorem fragmentLevel_succ : T.fragmentLevel c (k + 1) = distinct
    (((T.fragmentLevel c k).flatMap fun s =>
      ((T.store.triples.filter (·.subject = s)).map (·.object)).filter Term.isBlank).filter
        (· ∉ (List.range (k + 1)).flatMap (T.fragmentLevel c))) := by
  have hnext : T.blankSteps.next = fun s =>
      ((T.store.triples.filter (·.subject = s)).map (·.object)).filter Term.isBlank := by
    funext s
    rw [← Store.outgoing_eq_filter]
    rfl
  have hkey : T.blankSteps.key = id := rfl
  unfold fragmentLevel
  rw [Steps.level_succ, hkey, distinctFrom_id, List.map_id, Steps.found_eq_levels, hnext]

theorem mem_fragmentLevel_iff : x ∈ T.fragmentLevel c k ↔
    (∃ s, T.Seeds c s ∧ Way T.BlankFact s k x) ∧
      ∀ j < k, ∀ s, T.Seeds c s → ¬ Way T.BlankFact s j x := by
  rw [fragmentLevel, Steps.mem_level_iff fun _ _ h => h, leads_blankSteps]
  simp only [Steps.AtDepth, mem_fragmentQueue_iff]

/-- There are no more levels than terms: a level that no term is left for is empty. -/
theorem fragmentLevel_eq_nil (h : (distinct (c :: T.store.terms)).length ≤ k) :
    T.fragmentLevel c k = [] := by
  have hnodup : (T.blankSteps.breadthFirst [] (T.fragmentQueue c)).Nodup :=
    List.Nodup.of_map _ (T.blankSteps.nodup_map_key_breadthFirst [] _)
  have hsubset : T.blankSteps.breadthFirst [] (T.fragmentQueue c) ⊆ distinct (c :: T.store.terms) := by
    intro x hx
    obtain ⟨s, hs, hchain⟩ := mem_breadthFirst_fragmentQueue.1 hx
    rw [mem_distinct, List.mem_cons]
    rcases ReflTransGen.cases_tail hchain with rfl | ⟨y, -, -, predicate, hfact⟩
    · exact hs.imp_right Store.subject_mem_terms
    · exact Or.inr (Store.object_mem_terms hfact)
  have hlength := (List.subperm_of_subset hnodup hsubset).length_le
  exact Steps.level_eq_nil_of_length_le (hlength.trans h)

/-- **The nodes of a fragment stand level by level.** -/
theorem fragmentSubjects_eq_levels (h : T.fragmentLevel c k = []) : T.fragmentSubjects (.ofClass c) =
    ((List.range k).flatMap (T.fragmentLevel c)).filter T.store.hasSubject :=
  congrArg (List.filter T.store.hasSubject) (Steps.breadthFirst_eq_levels h)

/-! ## The main result -/

theorem textAt_id_nodeObject (table : NamespaceTable) (subject : Term) (facts : List Triple) :
    textAt "@id" (nodeObject table subject facts) = some (referenceText table subject) := by
  unfold textAt nodeObject
  rw [Json.get?_ofDictionary, Dictionary.get?_insert, if_pos rfl]
  rfl

/-- **A fragment covers what its class owns.** The nodes of the document are, once each, the terms with
facts among the class, its properties, and the blank nodes to which chains lead from these over blank
nodes only. They stand by the length of the shortest chain: the class and its properties in the order of
the graph, then at each level the blank nodes that the level before leads to, in its order and that of
the graph. There are no more levels than terms, also where chains come back. -/
theorem fragment_covers_owned (T : Taxonomy) (settings : Settings) (c : Term) :
    ((T.fragment settings (.ofClass c)).get? "@graph" =
        some (.array ((T.fragmentSubjects (.ofClass c)).map fun s =>
          nodeObject T.namespaces s (T.store.outgoing s))) ∧
      ∀ s, textAt "@id" (nodeObject T.namespaces s (T.store.outgoing s)) =
        some (referenceText T.namespaces s)) ∧
      (T.fragmentSubjects (.ofClass c)).Nodup ∧
      (∀ x, x ∈ T.fragmentSubjects (.ofClass c) ↔
        (∃ t ∈ T.store.triples, t.subject = x) ∧ T.Owns c x) ∧
      ∃ level : Nat → List Term,
        level 0 = distinct (c ::
          (T.store.triples.filter fun t => t.predicate = Rdfs.domain ∧ t.object = c).map (·.subject)) ∧
        (∀ k, level (k + 1) = distinct
          (((level k).flatMap fun s =>
            ((T.store.triples.filter (·.subject = s)).map (·.object)).filter Term.isBlank).filter
              (· ∉ (List.range (k + 1)).flatMap level))) ∧
        (∀ k x, x ∈ level k ↔ (∃ s, T.Seeds c s ∧ Way T.BlankFact s k x) ∧
          ∀ j < k, ∀ s, T.Seeds c s → ¬ Way T.BlankFact s j x) ∧
        ∀ k, (distinct (c :: T.store.terms)).length ≤ k → level k = [] ∧
          T.fragmentSubjects (.ofClass c) =
            ((List.range k).flatMap level).filter T.store.hasSubject := by
  have hgraph : (T.fragment settings (.ofClass c)).get? "@graph" =
      some (.array ((T.fragmentSubjects (.ofClass c)).map fun s =>
        nodeObject T.namespaces s (T.store.outgoing s))) := by
    simp [fragment, Json.get?_ofEntries]
  refine ⟨⟨hgraph, fun s => textAt_id_nodeObject _ s _⟩, T.nodup_fragmentSubjects _, fun x => ?_,
    T.fragmentLevel c, fragmentLevel_zero, fun k => fragmentLevel_succ,
    fun k x => mem_fragmentLevel_iff, fun k hk => ?_⟩
  · rw [mem_fragmentSubjects_iff, Store.hasSubject_iff]
  · have hnone := fragmentLevel_eq_nil hk
    exact ⟨hnone, fragmentSubjects_eq_levels hnone⟩

/-- Two comments that refer to each other end the fragment, the nearer one first. -/
example :
    let T : Taxonomy :=
      { store := .ofList
          [⟨.iri "http://x/o#roof", Rdfs.domain, .iri "http://x/o#House"⟩,
           ⟨.iri "http://x/o#roof", Rdfs.comment, .blank "first"⟩,
           ⟨.blank "first", "http://x/o#see", .blank "second"⟩,
           ⟨.blank "second", "http://x/o#see", .blank "first"⟩]
        namespaces := .empty }
    T.fragmentSubjects (.ofClass (.iri "http://x/o#House")) =
      [.iri "http://x/o#roof", .blank "first", .blank "second"] := by
  intro T
  have hnone : T.fragmentLevel (.iri "http://x/o#House") 3 = [] := by decide
  rw [fragmentSubjects_eq_levels hnone]
  decide

end Taxonomy

end TaxonomyPress
