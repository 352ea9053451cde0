import TaxonomyPress.Proofs.Attributes
import TaxonomyPress.Proofs.LoadingOrder

/-!
# Class records, and the records of all classes

* `Taxonomy.inheritedProperties` : the properties of a class that are not declared on it;
* `Taxonomy.filter_isDeclaredOn` : matching all properties with those declared on a class by their keys
  finds just these, in their order;
* `Taxonomy.mem_classes_iff`, `Taxonomy.nodup_classes` : a class occurs once however often it is typed;
* `Taxonomy.forall₂_records_resolveAll` : the records of all classes, in class order;
* `Taxonomy.record_partitions_properties` : a record has each property once, declared or inherited, and
  each class has a record or a failure.
-/

namespace TaxonomyPress.Taxonomy

variable {T : Taxonomy} {n : Node}

/-! ## Declared and inherited properties -/

/-- The properties of the class `n` that are not declared on it. -/
def inheritedProperties (T : Taxonomy) (n : Node) : List Node :=
  (T.allProperties n).filter (· ∉ T.declaredProperties n)

/-- Keys tell properties apart, so that one key is enough to be declared. -/
theorem isDeclaredOn_iff_mem (hT : T.store.Unambiguous) {p : Node} (hp : p ∈ T.allProperties n) :
    T.IsDeclaredOn n p ↔ p ∈ T.declaredProperties n := by
  rw [isDeclaredOn_iff, List.mem_map]
  refine ⟨?_, fun h => ⟨p, h, rfl⟩⟩
  rintro ⟨q, hq, hkey⟩
  have hqall : q ∈ T.allProperties n := declaredProperties_subset_allProperties hT n hq
  have hidentifiable : ∀ r ∈ T.allProperties n, r.term.Identifiable := by
    intro r hr
    obtain ⟨-, d, hd, -⟩ := (mem_allProperties_iff hT).1 hr
    exact hT.identifiable_subject hd
  exact (Node.key_inj (hidentifiable q hqall) (hidentifiable p hp)).1 hkey ▸ hq

/-- Both lists are sorted the same way, so those declared on a class stand among all properties in their
order. -/
theorem filter_isDeclaredOn (hT : T.store.Unambiguous) (n : Node) :
    (T.allProperties n).filter (T.IsDeclaredOn n ·) = T.declaredProperties n := by
  refine eq_of_pairwise_precedes ((pairwise_allProperties hT n).filter _)
    (pairwise_declaredProperties hT n) fun p => ?_
  rw [List.mem_filter, decide_eq_true_iff]
  constructor
  · rintro ⟨hp, hdeclared⟩
    exact (isDeclaredOn_iff_mem hT hp).1 hdeclared
  · intro hp
    have hall : p ∈ T.allProperties n := declaredProperties_subset_allProperties hT n hp
    exact ⟨hall, (isDeclaredOn_iff_mem hT hall).2 hp⟩

theorem filter_not_isDeclaredOn (hT : T.store.Unambiguous) (n : Node) :
    (T.allProperties n).filter (¬ T.IsDeclaredOn n ·) = T.inheritedProperties n :=
  List.filter_congr fun _ hp => decide_eq_decide.2 (not_congr (isDeclaredOn_iff_mem hT hp))

/-- All properties are declared or inherited. -/
theorem perm_declared_inherited (hT : T.store.Unambiguous) (n : Node) :
    (T.declaredProperties n ++ T.inheritedProperties n).Perm (T.allProperties n) := by
  rw [← filter_isDeclaredOn hT, ← filter_not_isDeclaredOn hT]
  exact perm_declaredFirst

theorem disjoint_declared_inherited (T : Taxonomy) (n : Node) :
    (T.declaredProperties n).Disjoint (T.inheritedProperties n) := by
  intro p hdeclared hinherited
  simpa [hdeclared] using (List.mem_filter.1 hinherited).2

/-- The properties of a record are those declared on the class and the inherited ones. -/
theorem properties_of_classRecord (hT : T.store.Unambiguous) {record : ClassRecord}
    (h : T.classRecord n = .ok record) :
    List.Forall₂ (fun p r => T.propertyRecord p (T.classScopes n) = .ok r)
        (T.declaredProperties n) record.declaredProperties ∧
      List.Forall₂ (fun p r => T.propertyRecord p (T.classScopes n) = .ok r)
        (T.inheritedProperties n) record.inheritedProperties := by
  obtain ⟨records, hrecords, hdeclared, hinherited⟩ := exists_partition h
  constructor
  · rw [hdeclared, filter_isDeclaredOn hT, List.forall₂_map_right_iff, List.forall₂_same]
    exact fun p hp => hrecords p (declaredProperties_subset_allProperties hT n hp)
  · rw [hinherited, filter_not_isDeclaredOn hT, List.forall₂_map_right_iff, List.forall₂_same]
    exact fun p hp => hrecords p (List.mem_of_mem_filter hp)

/-- The records of properties in their order have the compact identifiers of these. -/
theorem map_compactId_eq {scopes : List String} {properties : List Node}
    {records : List PropertyRecord}
    (h : List.Forall₂ (fun p r => T.propertyRecord p scopes = .ok r) properties records) :
    records.map (·.compactId) = properties.map T.compactId := by
  rw [← List.forall₂_eq_eq_eq, List.forall₂_map_left_iff, List.forall₂_map_right_iff]
  exact (h.imp fun p r hr => (names_of_propertyRecord hr).2.1.symm).flip

/-! ## All classes -/

theorem mem_classes_iff : n ∈ T.classes ↔
    n.kind = .classNode ∧ ∃ type ∈ classTypes, ⟨n.term, Rdf.type, .iri type⟩ ∈ T.store.triples := by
  obtain ⟨kind, term⟩ := n
  simp only [classes, List.mem_map, mem_distinct, List.mem_filter, Store.mem_matching,
    Store.Pattern.accepts_iff, Option.mem_def, reduceCtorEq, IsEmpty.forall_iff, implies_true,
    Option.some.injEq, forall_eq', true_and, and_true, Node.ofClass, Node.mk.injEq]
  constructor
  · rintro ⟨_, ⟨⟨subject, predicate, object⟩, ⟨⟨ht, rfl⟩, htype⟩, rfl⟩, rfl, rfl⟩
    cases object with
    | iri type => exact ⟨rfl, type, of_decide_eq_true htype, ht⟩
    | blank label => cases htype
    | literal l => cases htype
  · rintro ⟨rfl, type, htype, ht⟩
    exact ⟨term, ⟨⟨term, Rdf.type, .iri type⟩, ⟨⟨ht, rfl⟩, decide_eq_true htype⟩, rfl⟩, rfl, rfl⟩

/-- A class that is typed several times is one class. -/
theorem nodup_classes (T : Taxonomy) : T.classes.Nodup :=
  (nodup_distinct _).map fun _ _ h => congrArg Node.term h

theorem records_resolveEach (nodes : List Node) :
    (T.resolveEach nodes).records = nodes.filterMap fun n => (T.classRecord n).toOption := by
  induction nodes with
  | nil => rfl
  | cons n nodes ih =>
    rw [List.filterMap_cons, ← ih, resolveEach, resolveEach, List.foldr_cons]
    cases T.classRecord n with
    | ok record => rfl
    | error cause => rfl

/-- The classes that do not fail have their records, in class order. -/
theorem forall₂_records_resolveAll (T : Taxonomy) :
    List.Forall₂ (fun n record => T.classRecord n = .ok record)
      (T.classes.filter fun n => ¬ Fails (T.classRecord n)) T.resolveAll.records := by
  have hsome : ∀ n, (T.classRecord n).toOption.isSome ↔ ¬ Fails (T.classRecord n) := by
    intro n
    cases T.classRecord n with
    | ok record => exact iff_of_true rfl (not_fails_ok record)
    | error cause => exact iff_of_false nofun (not_not.2 (fails_error cause))
  rw [resolveAll, records_resolveEach]
  refine (forall₂_filterMap hsome T.classes).imp fun n record hrecord => ?_
  cases hn : T.classRecord n with
  | ok other => rw [hn] at hrecord; exact congrArg _ (Option.some.inj hrecord)
  | error cause => rw [hn] at hrecord; cases hrecord

theorem length_resolveAll (T : Taxonomy) :
    T.resolveAll.records.length + T.resolveAll.failures.length = T.classes.length := by
  have hsplit := List.length_eq_length_filter_add (l := T.classes)
    fun n => decide (Fails (T.classRecord n))
  rw [← (forall₂_records_resolveAll T).length_eq, ← (forall₂_failures_resolveAll T).length_eq,
    hsplit, Nat.add_comm]
  simp only [decide_not]

/-! ## The main result -/

/-- **A record has each property once**, on every unambiguous store: those declared on the class and,
apart from them, the inherited ones, both as the class sees them and in the order of all properties.
Each class occurs once, and has a record or a failure, both in class order. -/
theorem record_partitions_properties (T : Taxonomy) (hT : T.store.Unambiguous) :
    (∀ n record, T.classRecord n = .ok record →
      List.Forall₂ (fun p r => T.propertyRecord p (T.classScopes n) = .ok r)
        (T.declaredProperties n) record.declaredProperties ∧
      List.Forall₂ (fun p r => T.propertyRecord p (T.classScopes n) = .ok r)
        (T.inheritedProperties n) record.inheritedProperties ∧
      (T.declaredProperties n).Disjoint (T.inheritedProperties n) ∧
      (T.declaredProperties n ++ T.inheritedProperties n).Perm (T.allProperties n) ∧
      record.declaredProperties.length + record.inheritedProperties.length =
        (T.allProperties n).length) ∧
    T.classes.Nodup ∧
    (∀ n, n ∈ T.classes ↔ n.kind = .classNode ∧
      ∃ type ∈ classTypes, ⟨n.term, Rdf.type, .iri type⟩ ∈ T.store.triples) ∧
    List.Forall₂ (fun n record => T.classRecord n = .ok record)
      (T.classes.filter fun n => ¬ Fails (T.classRecord n)) T.resolveAll.records ∧
    List.Forall₂ (fun n f => f.iri = n.identifier ∧ T.classRecord n = .error f.cause)
      (T.classes.filter fun n => Fails (T.classRecord n)) T.resolveAll.failures ∧
    T.resolveAll.records.length + T.resolveAll.failures.length = T.classes.length := by
  refine ⟨fun n record h => ?_, T.nodup_classes, fun n => mem_classes_iff,
    T.forall₂_records_resolveAll, T.forall₂_failures_resolveAll, T.length_resolveAll⟩
  obtain ⟨hdeclared, hinherited⟩ := properties_of_classRecord hT h
  refine ⟨hdeclared, hinherited, T.disjoint_declared_inherited n, perm_declared_inherited hT n, ?_⟩
  rw [← (perm_declared_inherited hT n).length_eq, List.length_append, hdeclared.length_eq,
    hinherited.length_eq]

/-- The record of a house has the name of the house as declared, and that of the building as
inherited. -/
theorem sharedName_partitioned :
    sharedName.store.Unambiguous ∧ ∃ record,
      sharedName.classRecord (.ofClass (.iri "http://x/o#House")) = .ok record ∧
        record.declaredProperties.map (·.compactId) = ["o:houseName"] ∧
        record.inheritedProperties.map (·.compactId) = ["o:buildingName"] ∧
        sharedName.resolveAll.records.length + sharedName.resolveAll.failures.length = 2 := by
  have hT : sharedName.store.Unambiguous := by decide
  have hsubjects : ∀ t ∈ sharedName.store.triples,
      (sharedName.title (.ofClass t.subject)).toOption.isSome := by decide
  have htitled : ∀ p ∈ sharedName.allProperties (.ofClass (.iri "http://x/o#House")),
      sharedName.Titled p := by
    intro p hp
    refine titled_of_subjects hsubjects ?_
    rw [allProperties_sharedName] at hp
    revert p
    decide
  have hHouse : sharedName.Titled (.ofClass (.iri "http://x/o#House")) :=
    titled_of_subjects hsubjects (by decide)
  have hdeclaredProperties :
      sharedName.declaredProperties (.ofClass (.iri "http://x/o#House")) =
        [.ofProperty (.iri "http://x/o#houseName")] :=
    declaredProperties_of_subjects_eq (by decide)
  obtain ⟨record, hrecord⟩ := not_fails_iff.1 (hHouse.not_fails_classRecord htitled)
  obtain ⟨hpartition, -, -, -, -, hlength⟩ := record_partitions_properties sharedName hT
  obtain ⟨hdeclared, hinherited, -⟩ := hpartition _ record hrecord
  refine ⟨hT, record, hrecord, ?_, ?_, ?_⟩
  · rw [map_compactId_eq hdeclared, hdeclaredProperties]
    decide
  · rw [map_compactId_eq hinherited, inheritedProperties, hdeclaredProperties,
      allProperties_sharedName]
    decide +kernel
  · rw [hlength]
    decide

end TaxonomyPress.Taxonomy
