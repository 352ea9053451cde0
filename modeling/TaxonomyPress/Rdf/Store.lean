import TaxonomyPress.Rdf.PlaceIndex
import TaxonomyPress.Rdf.Term

/-!
# The triple store

* `Store` : triples in the order in which they were first inserted, each once, with an index for each
  of their parts; the view is `Store.triples`;
* `Store.insert`, `Store.insertAll`, `Store.ofList` : a triple that is there already changes
  nothing (`triples_insert`);
* `Store.matching` : the triples that agree with a pattern of given and open positions, found through
  the index that leaves the fewest (`matching_eq_filter`, `mem_matching`);
* `objects`, `subjects`, `outgoing`, `hasSubject` : the projections that the walks over a taxonomy
  read.
-/

namespace TaxonomyPress

/-- Facts in the order of their first insertion, without repetition. What has been seen and what the
indexes file are just these facts. -/
structure Store where
  triples : List Triple
  seen : List Triple
  bySubject : PlaceIndex Term
  byPredicate : PlaceIndex String
  byObject : PlaceIndex Term
  nodup : triples.Nodup
  mem_seen : ∀ t, t ∈ seen ↔ t ∈ triples
  bySubject_covers : bySubject.Covers Triple.subject triples
  byPredicate_covers : byPredicate.Covers Triple.predicate triples
  byObject_covers : byObject.Covers Triple.object triples

namespace Store

def empty : Store where
  triples := []
  seen := []
  bySubject := []
  byPredicate := []
  byObject := []
  nodup := List.nodup_nil
  mem_seen _ := Iff.rfl
  bySubject_covers := .nil _
  byPredicate_covers := .nil _
  byObject_covers := .nil _

/-- Adds `t` behind the other triples, unless it has been seen. -/
def insert (store : Store) (t : Triple) : Store :=
  if h : t ∈ store.seen then store
  else
    { triples := store.triples ++ [t]
      seen := t :: store.seen
      bySubject := store.bySubject.file t.subject store.triples.length
      byPredicate := store.byPredicate.file t.predicate store.triples.length
      byObject := store.byObject.file t.object store.triples.length
      nodup := List.nodup_append.2
        ⟨store.nodup, by simp, fun a ha b hb hab =>
          h ((store.mem_seen t).2 (List.mem_singleton.1 hb ▸ hab ▸ ha))⟩
      mem_seen := fun u => by
        rw [List.mem_cons, store.mem_seen u, List.mem_append, List.mem_singleton, or_comm]
      bySubject_covers := store.bySubject_covers.file t
      byPredicate_covers := store.byPredicate_covers.file t
      byObject_covers := store.byObject_covers.file t }

/-- Whether an insertion of `t` changes the store. -/
def isNew (store : Store) (t : Triple) : Bool := t ∉ store.seen

theorem isNew_iff {store : Store} {t : Triple} : store.isNew t ↔ t ∉ store.triples := by
  rw [isNew, decide_eq_true_iff, store.mem_seen]

theorem triples_insert (store : Store) (t : Triple) :
    (store.insert t).triples = if t ∈ store.triples then store.triples else store.triples ++ [t] := by
  unfold insert
  by_cases h : t ∈ store.triples
  · rw [dif_pos ((store.mem_seen t).2 h), if_pos h]
  · rw [dif_neg fun hseen => h ((store.mem_seen t).1 hseen), if_neg h]

theorem mem_triples_insert {store : Store} {t u : Triple} :
    u ∈ (store.insert t).triples ↔ u ∈ store.triples ∨ u = t := by
  rw [triples_insert]
  split
  · exact ⟨Or.inl, fun h => h.elim id fun h => by simp_all⟩
  · simp

/-- Inserts `ts` from left to right. -/
def insertAll (store : Store) (ts : List Triple) : Store := ts.foldl insert store

/-- The store of the triples in `ts`. -/
def ofList (ts : List Triple) : Store := empty.insertAll ts

theorem mem_triples_insertAll {store : Store} {ts : List Triple} {u : Triple} :
    u ∈ (store.insertAll ts).triples ↔ u ∈ store.triples ∨ u ∈ ts := by
  induction ts generalizing store with
  | nil => simp [insertAll]
  | cons t ts ih =>
    rw [show store.insertAll (t :: ts) = (store.insert t).insertAll ts from rfl, ih,
      mem_triples_insert, List.mem_cons, or_assoc]

theorem mem_triples_ofList {ts : List Triple} {u : Triple} :
    u ∈ (ofList ts).triples ↔ u ∈ ts := by
  simp [ofList, mem_triples_insertAll, empty]

/-- The number of triples. -/
def size (store : Store) : Nat := store.triples.length

/-- Whether the store holds no triple. -/
def isEmpty (store : Store) : Bool := store.triples.isEmpty

/-! ## Patterns -/

/-- A pattern gives some positions of a triple and leaves the others open. -/
structure Pattern where
  subject : Option Term := none
  predicate : Option String := none
  object : Option Term := none

/-- Whether `given` is open or equal to `actual`. -/
def agrees {α : Type} [DecidableEq α] (given : Option α) (actual : α) : Bool :=
  match given with
  | none => true
  | some wanted => actual = wanted

theorem agrees_iff {α : Type} [DecidableEq α] {given : Option α} {actual : α} :
    agrees given actual ↔ ∀ wanted ∈ given, actual = wanted := by
  cases given <;> simp [agrees]

/-- Whether `t` has all the parts that the pattern gives. -/
def Pattern.accepts (pattern : Pattern) (t : Triple) : Bool :=
  agrees pattern.subject t.subject && agrees pattern.predicate t.predicate
    && agrees pattern.object t.object

theorem Pattern.accepts_iff {pattern : Pattern} {t : Triple} :
    pattern.accepts t ↔ (∀ s ∈ pattern.subject, t.subject = s) ∧
      (∀ p ∈ pattern.predicate, t.predicate = p) ∧ ∀ o ∈ pattern.object, t.object = o := by
  rw [accepts, Bool.and_eq_true, Bool.and_eq_true, agrees_iff, agrees_iff, agrees_iff, and_assoc]

/-- What the indexes file under the parts that the pattern gives. -/
def filedLists (store : Store) (pattern : Pattern) : List (List Nat) :=
  [pattern.subject.map (store.bySubject.places ·),
    pattern.predicate.map (store.byPredicate.places ·),
    pattern.object.map (store.byObject.places ·)].filterMap id

/-- An index files the places of all triples that the pattern accepts, and maybe of others. -/
theorem exists_of_mem_filedLists {store : Store} {pattern : Pattern} {places : List Nat}
    (h : places ∈ store.filedLists pattern) :
    ∃ p : Triple → Bool, places = placesWhere p store.triples ∧ ∀ t, pattern.accepts t → p t := by
  simp only [filedLists, List.mem_filterMap, List.mem_cons, List.not_mem_nil, or_false, id,
    exists_eq_right] at h
  rcases h with h | h | h
  · obtain ⟨s, hs, rfl⟩ := Option.map_eq_some_iff.1 h.symm
    exact ⟨_, store.bySubject_covers s, fun t ht =>
      decide_eq_true ((Pattern.accepts_iff.1 ht).1 s hs)⟩
  · obtain ⟨p, hp, rfl⟩ := Option.map_eq_some_iff.1 h.symm
    exact ⟨_, store.byPredicate_covers p, fun t ht =>
      decide_eq_true ((Pattern.accepts_iff.1 ht).2.1 p hp)⟩
  · obtain ⟨o, ho, rfl⟩ := Option.map_eq_some_iff.1 h.symm
    exact ⟨_, store.byObject_covers o, fun t ht =>
      decide_eq_true ((Pattern.accepts_iff.1 ht).2.2 o ho)⟩

theorem accepts_of_filedLists_eq_nil {store : Store} {pattern : Pattern}
    (h : store.filedLists pattern = []) (t : Triple) : pattern.accepts t := by
  obtain ⟨subject, predicate, object⟩ := pattern
  cases subject <;> cases predicate <;> cases object <;> simp_all [filedLists, Pattern.accepts, agrees]

/-- The places at which a triple that the pattern accepts can stand, from the index that leaves the
fewest; none if the pattern is open everywhere. -/
def candidates (store : Store) (pattern : Pattern) : Option (List Nat) :=
  shortest (store.filedLists pattern)

/-- The triples that the pattern accepts, in the order of the store. -/
def matching (store : Store) (pattern : Pattern) : List Triple :=
  match store.candidates pattern with
  | some places => (places.filterMap (store.triples[·]?)).filter pattern.accepts
  | none => store.triples

/-- The indexes leave no triple out and change no order. -/
theorem matching_eq_filter (store : Store) (pattern : Pattern) :
    store.matching pattern = store.triples.filter pattern.accepts := by
  unfold matching
  cases h : store.candidates pattern with
  | none =>
    have hopen := accepts_of_filedLists_eq_nil (shortest_eq_none_iff.1 h)
    exact (List.filter_eq_self.2 fun t _ => hopen t).symm
  | some places =>
    obtain ⟨p, rfl, hp⟩ := exists_of_mem_filedLists (mem_of_shortest h)
    show ((placesWhere p store.triples).filterMap _).filter _ = _
    rw [filterMap_placesWhere, List.filter_filter]
    refine List.filter_congr fun t _ => ?_
    cases ht : pattern.accepts t
    · rfl
    · exact hp t ht

theorem mem_matching {store : Store} {pattern : Pattern} {t : Triple} :
    t ∈ store.matching pattern ↔ t ∈ store.triples ∧ pattern.accepts t := by
  rw [matching_eq_filter, List.mem_filter]

/-- The triples about `subject`. -/
def outgoing (store : Store) (subject : Term) : List Triple :=
  store.matching { subject := some subject }

/-- The values of `predicate` on `subject`. -/
def objects (store : Store) (subject : Term) (predicate : String) : List Term :=
  (store.matching { subject := some subject, predicate := some predicate }).map (·.object)

/-- The subjects that have `object` as a value of `predicate`. -/
def subjects (store : Store) (predicate : String) (object : Term) : List Term :=
  (store.matching { predicate := some predicate, object := some object }).map (·.subject)

/-- Whether the store holds a triple about `subject`. -/
def hasSubject (store : Store) (subject : Term) : Bool :=
  !(store.matching { subject := some subject }).isEmpty

/-- Every term that stands as a subject or an object, in the order of the store. -/
def terms (store : Store) : List Term :=
  store.triples.flatMap fun t => [t.subject, t.object]

theorem mem_objects {store : Store} {s o : Term} {p : String} :
    o ∈ store.objects s p ↔ ⟨s, p, o⟩ ∈ store.triples := by
  simp only [objects, List.mem_map, mem_matching, Pattern.accepts, agrees, Bool.and_true,
    Bool.and_eq_true, decide_eq_true_eq]
  constructor
  · rintro ⟨⟨s', p', o'⟩, ⟨h, rfl, rfl⟩, rfl⟩
    exact h
  · exact fun h => ⟨_, ⟨h, rfl, rfl⟩, rfl⟩

theorem mem_subjects {store : Store} {s o : Term} {p : String} :
    s ∈ store.subjects p o ↔ ⟨s, p, o⟩ ∈ store.triples := by
  simp only [subjects, List.mem_map, mem_matching, Pattern.accepts, agrees, Bool.true_and,
    Bool.and_eq_true, decide_eq_true_eq]
  constructor
  · rintro ⟨⟨s', p', o'⟩, ⟨h, rfl, rfl⟩, rfl⟩
    exact h
  · exact fun h => ⟨_, ⟨h, rfl, rfl⟩, rfl⟩

theorem mem_outgoing {store : Store} {s : Term} {t : Triple} :
    t ∈ store.outgoing s ↔ t ∈ store.triples ∧ t.subject = s := by
  simp [outgoing, mem_matching, Pattern.accepts, agrees]

theorem nodup_outgoing (store : Store) (s : Term) : (store.outgoing s).Nodup := by
  rw [outgoing, matching_eq_filter]
  exact store.nodup.filter _

theorem hasSubject_iff {store : Store} {s : Term} :
    store.hasSubject s ↔ ∃ t ∈ store.triples, t.subject = s := by
  rw [hasSubject, Bool.not_eq_true', List.isEmpty_eq_false_iff_exists_mem]
  simp [mem_matching, Pattern.accepts, agrees]

theorem subject_mem_terms {store : Store} {t : Triple} (h : t ∈ store.triples) :
    t.subject ∈ store.terms := by
  simp only [terms, List.mem_flatMap]; exact ⟨t, h, by simp⟩

theorem object_mem_terms {store : Store} {t : Triple} (h : t ∈ store.triples) :
    t.object ∈ store.terms := by
  simp only [terms, List.mem_flatMap]; exact ⟨t, h, by simp⟩

end Store

end TaxonomyPress
