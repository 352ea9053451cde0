import TaxonomyPress.Proofs.Agreement
import TaxonomyPress.Proofs.Insertion

/-!
# Facts that have nothing to do with a class

* `Taxonomy.Occurs`, `Taxonomy.Described` : terms that a graph has, and those that it has a fact about,
  with the term of a class counted in;
* `Taxonomy.UnrelatedInsertion` : new facts are about terms that do not occur and have no values that
  are described;
* `UnrelatedInsertion.objects_eq`, `UnrelatedInsertion.subjects_eq` : so questions about terms that
  occur, and for subjects of values that are described, have the same answers;
* `UnrelatedInsertion.agreesOn` : no reading leaves these terms, so the record and the lineages of the
  class are the same.
-/

namespace TaxonomyPress.Taxonomy

variable {T : Taxonomy} {c : Term}

/-! ## The terms around a class -/

/-- The term stands in the graph, or is that of the class. -/
def Occurs (T : Taxonomy) (c s : Term) : Prop := s ∈ T.store.terms ∨ s = c

/-- The graph has a fact about the term, or it is that of the class. -/
def Described (T : Taxonomy) (c s : Term) : Prop := T.store.hasSubject s ∨ s = c

theorem Described.occurs {s : Term} (h : T.Described c s) : T.Occurs c s := by
  rcases h with h | rfl
  · obtain ⟨t, ht, rfl⟩ := Store.hasSubject_iff.1 h
    exact Or.inl (Store.subject_mem_terms ht)
  · exact Or.inr rfl

theorem occurs_of_mem_objects {s o : Term} {predicate : String}
    (h : o ∈ T.store.objects s predicate) : T.Occurs c o :=
  Or.inl (Store.object_mem_terms (Store.mem_objects.1 h))

theorem described_of_mem_subjects {s o : Term} {predicate : String}
    (h : s ∈ T.store.subjects predicate o) : T.Described c s :=
  Or.inl (Store.hasSubject_iff.2 ⟨_, Store.mem_subjects.1 h, rfl⟩)

theorem described_of_mem_realParents {n p : Node} (h : p ∈ T.realParents n) :
    T.Described c p.term :=
  Or.inl (mem_realParents_iff.1 h).hasSubject

theorem described_of_mem_below {n m : Node} (h : m ∈ T.below n) : T.Described c m.term := by
  obtain ⟨s, hs, rfl⟩ := List.mem_map.1 h
  rcases List.mem_append.1 hs with hs | hs
  · exact described_of_mem_subjects hs
  · exact described_of_mem_subjects hs

/-! ## Unrelated facts -/

/-- The store `after` has the facts of `T` and, at any places among them, new ones. These are not about
terms that occur, and none has a value that is described. -/
structure UnrelatedInsertion (T : Taxonomy) (after : Store) (c : Term) (new : List Triple) :
    Prop where
  insertion : T.store.IsInsertion after new
  subject_apart : ∀ t ∈ new, ¬ T.Occurs c t.subject
  object_apart : ∀ t ∈ new, ¬ T.Described c t.object

namespace UnrelatedInsertion

variable {after : Store} {new : List Triple} (h : T.UnrelatedInsertion after c new)

include h

theorem matching_eq_of_subject {pattern : Store.Pattern} {s : Term} (hs : T.Occurs c s)
    (hpattern : pattern.subject = some s) : after.matching pattern = T.store.matching pattern := by
  refine h.insertion.isExtension.matching fun t ht haccepts => h.subject_apart t ht ?_
  have heq : t.subject = s := (Store.Pattern.accepts_iff.1 haccepts).1 s hpattern
  exact heq ▸ hs

theorem matching_eq_of_object {pattern : Store.Pattern} {o : Term} (ho : T.Described c o)
    (hpattern : pattern.object = some o) : after.matching pattern = T.store.matching pattern := by
  refine h.insertion.isExtension.matching fun t ht haccepts => h.object_apart t ht ?_
  have heq : t.object = o := (Store.Pattern.accepts_iff.1 haccepts).2.2 o hpattern
  exact heq ▸ ho

theorem objects_eq {s : Term} (hs : T.Occurs c s) (predicate : String) :
    after.objects s predicate = T.store.objects s predicate :=
  congrArg (List.map _) (h.matching_eq_of_subject hs rfl)

theorem outgoing_eq {s : Term} (hs : T.Occurs c s) : after.outgoing s = T.store.outgoing s :=
  h.matching_eq_of_subject hs rfl

theorem hasSubject_eq {s : Term} (hs : T.Occurs c s) :
    after.hasSubject s = T.store.hasSubject s :=
  congrArg (fun found : List Triple => !found.isEmpty) (h.matching_eq_of_subject hs rfl)

theorem subjects_eq {o : Term} (ho : T.Described c o) (predicate : String) :
    after.subjects predicate o = T.store.subjects predicate o :=
  congrArg (List.map _) (h.matching_eq_of_object ho rfl)

theorem realTargets_eq {s : Term} (hs : T.Occurs c s) (predicate : String) :
    (T.withStore after).realTargets s predicate = T.realTargets s predicate :=
  realTargets_congr (h.objects_eq hs predicate) fun _ ho => h.hasSubject_eq (occurs_of_mem_objects ho)

/-- What occurs is resolved as before. -/
theorem agreesOn : T.AgreesOn after (T.Occurs c) (T.Described c) (T.Described c) where
  known_of_described := Described.occurs
  described_of_listed := id
  known_of_mem_objects := occurs_of_mem_objects
  known_of_mem_subjects hs := (described_of_mem_subjects hs).occurs
  described_of_mem_realParents := described_of_mem_realParents
  listed_of_mem_below _ := described_of_mem_below
  objects_eq hs _ := h.objects_eq hs _
  subjects_eq ho predicate := h.subjects_eq ho predicate
  hasSubject_eq hs := h.hasSubject_eq hs
  realTargets_eq hs predicate := h.realTargets_eq hs predicate
  restrictionEntries_eq hs := congrArg (List.filterMap _) (h.outgoing_eq hs)

theorem lineages_eq {n : Node} (hn : T.Occurs c n.term) :
    (T.withStore after).lineages n = T.lineages n :=
  h.agreesOn.lineages_eq hn

theorem classRecord_eq {n : Node} (hn : T.Described c n.term) :
    (T.withStore after).classRecord n = T.classRecord n :=
  h.agreesOn.classRecord_eq hn

end UnrelatedInsertion

end TaxonomyPress.Taxonomy
