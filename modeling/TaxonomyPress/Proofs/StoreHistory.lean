import TaxonomyPress.Distinct
import TaxonomyPress.Rdf.Names
import TaxonomyPress.Rdf.Store

/-!
# A store is the list of what was inserted

* `Store.Step` : one insertion, several, or a new store; `Store.after` : the store that steps lead to;
* `Store.inserted` : the triples that they insert, in order and with repetitions;
* `Store.triples_after` : the store holds these triples, each at its first place only, since every step
  keeps it so (`Store.Step.triples_take`);
* `Store.indexed_store_refines_list` : so it answers every question as that list does.
-/

namespace TaxonomyPress.Store

/-! ## Steps -/

/-- What is done with a store. Collecting triples gives a new store. -/
inductive Step where
  | insert (t : Triple)
  | extend (ts : List Triple)
  | collect (ts : List Triple)

namespace Step

/-- The store behind a step. -/
def take (store : Store) : Step → Store
  | insert t => store.insert t
  | extend ts => store.insertAll ts
  | collect ts => .ofList ts

/-- What has been inserted behind a step. -/
def note (inserted : List Triple) : Step → List Triple
  | insert t => inserted ++ [t]
  | extend ts => inserted ++ ts
  | collect ts => ts

end Step

/-- The store behind `steps` from the empty one. -/
def after (steps : List Step) : Store := steps.foldl Step.take empty

/-- The triples inserted into it, in order, repetitions included. -/
def inserted (steps : List Step) : List Triple := steps.foldl Step.note []

/-! ## What steps keep -/

variable {store : Store} {ts : List Triple}

theorem triples_insert_of_eq_distinct (h : store.triples = distinct ts) (t : Triple) :
    (store.insert t).triples = distinct (ts ++ [t]) := by
  rw [triples_insert, distinct_concat, h]
  simp only [mem_distinct]

theorem triples_insertAll_of_eq_distinct (h : store.triples = distinct ts) (us : List Triple) :
    (store.insertAll us).triples = distinct (ts ++ us) := by
  induction us generalizing store ts with
  | nil =>
    rw [List.append_nil]
    exact h
  | cons u us ih =>
    have hrest : ((store.insert u).insertAll us).triples = distinct ((ts ++ [u]) ++ us) :=
      ih (triples_insert_of_eq_distinct h u)
    rw [List.append_assoc] at hrest
    exact hrest

theorem triples_empty : empty.triples = distinct [] := rfl

theorem triples_ofList (ts : List Triple) : (ofList ts).triples = distinct ts :=
  triples_insertAll_of_eq_distinct triples_empty ts

/-- No step loses a triple, repeats one or changes their order. -/
theorem Step.triples_take (h : store.triples = distinct ts) (step : Step) :
    (step.take store).triples = distinct (step.note ts) := by
  cases step with
  | insert t => exact triples_insert_of_eq_distinct h t
  | extend us => exact triples_insertAll_of_eq_distinct h us
  | collect us => exact triples_ofList us

theorem triples_foldl_take (h : store.triples = distinct ts) (steps : List Step) :
    (steps.foldl Step.take store).triples = distinct (steps.foldl Step.note ts) := by
  induction steps generalizing store ts with
  | nil => exact h
  | cons step rest ih => exact ih (step.triples_take h)

theorem triples_after (steps : List Step) : (after steps).triples = distinct (inserted steps) :=
  triples_foldl_take triples_empty steps

/-! ## Questions -/

/-- No index leads beyond the triples. -/
theorem lt_size_of_mem_candidates {pattern : Pattern} {places : List Nat}
    (h : store.candidates pattern = some places) {i : Nat} (hi : i ∈ places) : i < store.size := by
  obtain ⟨p, rfl, -⟩ := exists_of_mem_filedLists (mem_of_shortest h)
  exact lt_length_of_mem_placesWhere hi

theorem objects_eq_filter (store : Store) (s : Term) (p : String) : store.objects s p =
    (store.triples.filter fun t => t.subject = s ∧ t.predicate = p).map Triple.object := by
  rw [objects, matching_eq_filter]
  refine congrArg (List.map _) (List.filter_congr fun t _ => ?_)
  simp [Pattern.accepts, agrees]

theorem subjects_eq_filter (store : Store) (p : String) (o : Term) : store.subjects p o =
    (store.triples.filter fun t => t.predicate = p ∧ t.object = o).map Triple.subject := by
  rw [subjects, matching_eq_filter]
  refine congrArg (List.map _) (List.filter_congr fun t _ => ?_)
  simp [Pattern.accepts, agrees]

/-- **A store answers as the list of its triples.** Whatever has been inserted, extended or collected,
the store is the list `L` of the inserted triples without repetitions: an insertion is new just when
`L` has not the triple, size and emptiness are those of `L`, and every pattern finds the members of
`L` that have the given parts, each once and in the order of `L`; no index leads beyond the triples. -/
theorem indexed_store_refines_list (steps : List Step) :
    let L := distinct (inserted steps)
    (∀ t, (after steps).isNew t ↔ t ∉ L) ∧
      (after steps).size = L.length ∧
      ((after steps).isEmpty ↔ L = []) ∧
      (∀ pattern, (after steps).matching pattern = L.filter fun t =>
        (∀ s ∈ pattern.subject, t.subject = s) ∧ (∀ p ∈ pattern.predicate, t.predicate = p) ∧
          ∀ o ∈ pattern.object, t.object = o) ∧
      (∀ pattern, ((after steps).matching pattern).Nodup) ∧
      (∀ pattern places, (after steps).candidates pattern = some places →
        ∀ i ∈ places, i < L.length) ∧
      (∀ s, (after steps).hasSubject s ↔ ∃ t ∈ L, t.subject = s) ∧
      (∀ s p, (after steps).objects s p =
        (L.filter fun t => t.subject = s ∧ t.predicate = p).map Triple.object) ∧
      ∀ p o, (after steps).subjects p o =
        (L.filter fun t => t.predicate = p ∧ t.object = o).map Triple.subject := by
  intro L
  have hL : (after steps).triples = L := triples_after steps
  refine ⟨fun t => ?_, ?_, ?_, fun pattern => ?_, fun pattern => ?_, fun pattern places h i hi => ?_,
    fun s => ?_, fun s p => ?_, fun p o => ?_⟩
  · rw [isNew_iff, hL]
  · rw [size, hL]
  · rw [isEmpty, hL, List.isEmpty_iff]
  · rw [matching_eq_filter, hL]
    refine List.filter_congr fun t _ => ?_
    rw [Bool.eq_iff_iff, Pattern.accepts_iff, decide_eq_true_iff]
  · rw [matching_eq_filter]
    exact (after steps).nodup.filter _
  · rw [← hL]
    exact lt_size_of_mem_candidates h hi
  · rw [hasSubject_iff, hL]
  · rw [objects_eq_filter, hL]
  · rw [subjects_eq_filter, hL]

/-- Three facts about two houses, one of them given three times. -/
def repeatedHouse : List Step :=
  [.insert ⟨.iri "http://x/o#Boat", Rdf.type, .iri Rdfs.classType⟩,
   .collect [⟨.iri "http://x/o#House", Rdf.type, .iri Rdfs.classType⟩,
     ⟨.iri "http://x/o#House", Rdf.type, .iri Rdfs.classType⟩],
   .insert ⟨.iri "http://x/o#House", Rdfs.label, .plain "house"⟩,
   .extend [⟨.iri "http://x/o#Cabin", Rdf.type, .iri Rdfs.classType⟩,
     ⟨.iri "http://x/o#House", Rdf.type, .iri Rdfs.classType⟩]]

/-- The types of both stand at the places 0 and 2, and those of the house at 0 alone. -/
theorem repeatedHouse_types :
    (after repeatedHouse).candidates { predicate := some Rdf.type } = some [0, 2] ∧
      (∀ i ∈ [0, 2], i < (distinct (inserted repeatedHouse)).length) ∧
      (after repeatedHouse).objects (.iri "http://x/o#House") Rdf.type = [.iri Rdfs.classType] := by
  have hplaces : (after repeatedHouse).candidates { predicate := some Rdf.type } = some [0, 2] := by
    decide
  obtain ⟨-, -, -, -, -, hbound, -, hobjects, -⟩ := indexed_store_refines_list repeatedHouse
  refine ⟨hplaces, hbound _ _ hplaces, (hobjects _ _).trans ?_⟩
  decide

end TaxonomyPress.Store
