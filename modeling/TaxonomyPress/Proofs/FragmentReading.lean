import TaxonomyPress.Document.Fragment
import TaxonomyPress.Proofs.NodeKeys
import TaxonomyPress.Proofs.PrefixedNames
import TaxonomyPress.Proofs.Traversal
import TaxonomyPress.Proofs.Walks
import Mathlib.Data.List.Induction
import Mathlib.Data.List.Perm.Basic

/-!
# Ontology fragments read back

A fragment is read with nothing but the document: names expand through the prefixes of its own
context, identifiers that begin with `_:` are blank nodes, and the types of a node are those that are
IRIs.

* `readFragment` : the subjects of a fragment with their facts; it reads terms (`readTerm`), values
  (`readValue`) and single facts (`readFact`);
* `perm_listed_groupByKey` : grouping by key moves values together and loses none;
* `NamespaceTable.Expandable`, `Store.Expressible` : tables and stores without the names that a
  reader would take for others;
* `readFact_encodeFact`, `readNode_nodeObject` : facts and nodes are read as they were written;
* `Taxonomy.fragment_lossless` : a fragment says just the facts about its subjects.
-/

namespace TaxonomyPress

/-! ## The reader -/

/-- The IRI that a context binds to a prefix. The version is no prefix. -/
def boundIri (context : Json) (name : String) : Option String :=
  if name = "@version" then none else textAt name context

/-- The IRI that a name stands for: that of a prefixed name with a bound prefix, or else itself. -/
def readIri (context : Json) (name : String) : String :=
  ((Text.cutAtFirst ':' name).bind fun parts =>
    (boundIri context parts.1).map (· ++ parts.2)).getD name

/-- The node that an identifier stands for. -/
def readTerm (context : Json) (id : String) : Term :=
  match Text.dropPrefix "_:" id with
  | some label => .blank label
  | none => .iri (readIri context id)

/-- The term of a value: a reference, or a literal. -/
def readValue (context value : Json) : Option Term :=
  match textAt "@id" value, textAt "@value" value with
  | some id, _ => some (readTerm context id)
  | none, some text =>
    some (.literal
      { text
        language := textAt "@language" value
        datatype := (textAt "@type" value).map (readIri context) })
  | none, none => none

/-- The fact about `subject` that a key and one of its values give. -/
def readFact (context : Json) (subject : Term) (fact : String × Json) : Option Triple :=
  if fact.1 = "@type" then
    fact.2.asString?.map fun id => ⟨subject, Rdf.type, readTerm context id⟩
  else (readValue context fact.2).map fun object => ⟨subject, readIri context fact.1, object⟩

/-- The values of a member, each with its key. -/
def keyedValues (entry : String × Json) : Option (List (String × Json)) :=
  entry.2.asArray?.map fun values => values.map (entry.1, ·)

/-- The values of every member of a node but its identifier. -/
def memberValues (members : List (String × Json)) : Option (List (String × Json)) := do
  let values ← (members.filter fun entry => entry.1 ≠ "@id").mapM keyedValues
  return values.flatten

/-- The subject of a node and its facts. -/
def readNode (context node : Json) : Option (Term × List Triple) := do
  let id ← textAt "@id" node
  let values ← memberValues (← node.asObject?)
  let facts ← values.mapM (readFact context (readTerm context id))
  return (readTerm context id, facts)

/-- The subjects of a fragment with their facts. -/
def readFragment (document : Json) : Option (List (Term × List Triple)) := do
  let context ← document.get? "@context"
  let nodes ← (← document.get? "@graph").asArray?
  nodes.mapM (readNode context)

/-! ## Groups -/

/-- The entries of groups, one for each value. -/
def listed {α : Type} (groups : Dictionary (List α)) : List (String × α) :=
  groups.flatMap fun (key, values) => values.map (key, ·)

theorem perm_listed_insert {α : Type} {groups : Dictionary (List α)} (h : groups.Ordered)
    (key : String) (value : α) :
    (listed (groups.insert key ((groups.get? key).getD [] ++ [value]))).Perm
      (listed groups ++ [(key, value)]) := by
  induction groups with
  | nil => exact List.Perm.refl _
  | cons first rest ih =>
    obtain ⟨k, values⟩ := first
    obtain ⟨hk, hrest⟩ := List.pairwise_cons.1 h
    have hne : ∀ {o : Ordering}, o ≠ .eq → compareText key k = o → k ≠ key := by
      rintro o ho hcompare rfl
      exact ho (hcompare.symm.trans (compareText_eq_iff.2 rfl))
    rw [Dictionary.insert, Dictionary.get?]
    split
    · rename_i hlt
      have hnone : Dictionary.get? key rest = none := by
        refine Dictionary.get?_eq_none_iff.2 fun hmem => ?_
        obtain ⟨entry, hentry, rfl⟩ := List.mem_map.1 hmem
        have hgt := Std.TransCmp.lt_trans hlt (hk entry hentry)
        rw [compareText_eq_iff.2 rfl] at hgt
        cases hgt
      rw [if_neg (hne (by decide) hlt), hnone]
      exact (List.perm_append_singleton (key, value) (listed ((k, values) :: rest))).symm
    · rename_i heq
      obtain rfl := compareText_eq_iff.1 heq
      rw [if_pos rfl, Option.getD_some]
      simp only [listed, List.flatMap_cons, List.map_append, List.append_assoc]
      exact List.Perm.append_left _ List.perm_append_comm
    · rename_i hgt
      rw [if_neg (hne (by decide) hgt)]
      simp only [listed, List.flatMap_cons, List.append_assoc]
      exact List.Perm.append_left _ (ih hrest)

theorem groupByKey_concat (facts : List (String × Json)) (key : String) (value : Json) :
    groupByKey (facts ++ [(key, value)]) =
      (groupByKey facts).insert key (((groupByKey facts).get? key).getD [] ++ [value]) := by
  unfold groupByKey
  rw [List.foldl_append]
  rfl

theorem ordered_groupByKey (facts : List (String × Json)) : (groupByKey facts).Ordered := by
  induction facts using List.reverseRecOn with
  | nil => exact List.Pairwise.nil
  | append_singleton facts fact ih =>
    rw [groupByKey_concat]
    exact Dictionary.ordered_insert ih

/-- Grouping loses no value and adds none. -/
theorem perm_listed_groupByKey (facts : List (String × Json)) :
    (listed (groupByKey facts)).Perm facts := by
  induction facts using List.reverseRecOn with
  | nil => exact List.Perm.nil
  | append_singleton facts fact ih =>
    rw [groupByKey_concat]
    exact (perm_listed_insert (ordered_groupByKey facts) fact.1 fact.2).trans (ih.append_right _)

/-- Every key of the groups is that of a fact. -/
theorem notMem_keys_groupByKey {key : String} {facts : List (String × Json)}
    (h : ∀ fact ∈ facts, fact.1 ≠ key) : key ∉ (groupByKey facts).keys := by
  rw [← Dictionary.get?_eq_none_iff]
  induction facts using List.reverseRecOn with
  | nil => rfl
  | append_singleton facts fact ih =>
    have hfact : fact.1 ≠ key := h fact (List.mem_append_right _ (List.mem_singleton_self _))
    rw [groupByKey_concat, Dictionary.get?_insert, if_neg hfact]
    exact ih fun fact hfact => h fact (List.mem_append_left _ hfact)

/-! ## Names -/

/-- No prefix has a colon, and none reads like a blank node or like the version. -/
structure NamespaceTable.Expandable (table : NamespaceTable) : Prop where
  distinct : table.PrefixesDistinct
  colonFree : table.ColonFree
  ne_blank : ∀ binding ∈ table.bindings, binding.1 ≠ "_"
  ne_version : ∀ binding ∈ table.bindings, binding.1 ≠ "@version"

section Names

variable {table : NamespaceTable} (htable : table.Expandable) (settings : Settings)

include htable

/-- The context of a fragment binds just the prefixes of the table. -/
theorem boundIri_ontologyContext (name : String) :
    boundIri (ontologyContext settings table) name = table.iriFor name := by
  unfold boundIri
  split
  · rename_i hname
    cases hiri : table.iriFor name with
    | none => rfl
    | some iri =>
      have hmem := (NamespaceTable.iriFor_eq_some_iff htable.distinct).1 hiri
      exact absurd hname (htable.ne_version _ hmem)
  · rename_i hname
    have hne : ¬ "@version" = name := fun h => hname h.symm
    let strings := table.bindings.map fun binding => (binding.1, Json.string binding.2)
    have hdistinct : (strings.reverse.map (·.1)).Nodup := by
      rw [List.map_reverse, List.nodup_reverse, List.map_map]
      exact htable.distinct
    unfold textAt ontologyContext
    rw [Json.get?_ofEntries, List.reverse_cons, List.find?_append,
      List.find?_cons_of_neg (by simpa using hne), List.find?_nil, Option.or_none]
    show ((strings.reverse.find? (·.1 = name)).map (·.2)).bind Json.asString? = _
    cases hiri : table.iriFor name with
    | some iri =>
      have hmem := (NamespaceTable.iriFor_eq_some_iff htable.distinct).1 hiri
      have hentry : (name, Json.string iri) ∈ strings.reverse :=
        List.mem_reverse.2 (List.mem_map.2 ⟨_, hmem, rfl⟩)
      rw [(find?_key_eq_some_iff hdistinct).2 ⟨hentry, rfl⟩]
      rfl
    | none =>
      cases hfind : strings.reverse.find? (·.1 = name) with
      | none => rfl
      | some entry =>
        obtain ⟨hentry, rfl⟩ := (find?_key_eq_some_iff hdistinct).1 hfind
        obtain ⟨binding, hbinding, rfl⟩ := List.mem_map.1 (List.mem_reverse.1 hentry)
        have hsome := (NamespaceTable.iriFor_eq_some_iff htable.distinct).2 hbinding
        exact absurd (hsome.symm.trans hiri) (by simp)

theorem readIri_ontologyContext (name : String) :
    readIri (ontologyContext settings table) name = table.resolveReference name := by
  unfold readIri NamespaceTable.resolveReference
  simp only [NamespaceTable.expand_eq, boundIri_ontologyContext htable]

/-- The short form of an IRI is read as the IRI. -/
theorem readIri_shorten {iri : String} (h : table.looksPrefixed iri = false) :
    readIri (ontologyContext settings table) (table.shorten iri) = iri := by
  rw [readIri_ontologyContext htable]
  exact NamespaceTable.resolveReference_shorten htable.distinct htable.colonFree h

/-- The short form of an IRI does not begin like a blank node. -/
theorem dropPrefix_shorten {iri : String} (h : Text.startsWith "_:" iri = false) :
    Text.dropPrefix "_:" (table.shorten iri) = none := by
  unfold NamespaceTable.shorten
  cases hcompact : table.compact iri with
  | none => simpa [Text.startsWith] using h
  | some name =>
    obtain ⟨front, namespaceIri, rest, hcut, hbinding, -⟩ :=
      NamespaceTable.cutAtFirst_compact htable.colonFree hcompact
    refine Option.eq_none_iff_forall_ne_some.2 fun label hlabel => ?_
    rw [Option.getD_some, Text.dropPrefix_eq_some_iff] at hlabel
    have hblank : Text.cutAtFirst ':' ("_" ++ ":" ++ label) = some ("_", label) :=
      Text.cutAtFirst_append label rfl (by decide)
    have hname : "_" ++ ":" ++ label = name := hlabel
    rw [hname, hcut] at hblank
    have hfront : front = "_" := congrArg Prod.fst (Option.some.inj hblank)
    exact htable.ne_blank _ hbinding hfront

/-- A reference is read as its term. -/
theorem readTerm_referenceText {term : Term} (hterm : term.Identifiable)
    (hiri : ∀ iri ∈ term.asIri, table.looksPrefixed iri = false) :
    readTerm (ontologyContext settings table) (referenceText table term) = term := by
  unfold readTerm
  cases term with
  | iri iri =>
    show (match Text.dropPrefix "_:" (table.shorten iri) with
      | some label => Term.blank label
      | none => .iri (readIri _ (table.shorten iri))) = _
    rw [dropPrefix_shorten htable (hterm.notBlankLike iri rfl)]
    exact congrArg Term.iri (readIri_shorten htable settings (hiri iri rfl))
  | blank label =>
    have h : Text.dropPrefix "_:" ("_:" ++ label) = some label := Text.dropPrefix_eq_some_iff.2 rfl
    show (match Text.dropPrefix "_:" ("_:" ++ label) with
      | some label => Term.blank label
      | none => .iri _) = _
    rw [h]
  | literal l => exact absurd hterm.isResource Bool.false_ne_true

end Names

/-! ## Facts -/

/-- The IRIs that a term mentions. -/
def Term.iris : Term → List String
  | iri i => [i]
  | blank _ => []
  | literal l => l.datatype.toList

/-- The IRIs of a store. -/
def Store.iris (store : Store) : List String :=
  store.triples.flatMap fun t => t.subject.iris ++ t.predicate :: t.object.iris

/-- Predicates have a colon, no literal has both a language and a datatype, and no IRI looks like a
prefixed name. -/
structure Store.Expressible (store : Store) (table : NamespaceTable) : Prop where
  predicate_colon : ∀ t ∈ store.triples, ':' ∈ t.predicate.toList
  literal_single : ∀ t ∈ store.triples, ∀ l ∈ t.object.asLiteral,
    l.language = none ∨ l.datatype = none
  looksPrefixed_eq : ∀ iri ∈ store.iris, table.looksPrefixed iri = false

theorem colon_mem_shorten {table : NamespaceTable} {iri : String} (h : ':' ∈ iri.toList) :
    ':' ∈ (table.shorten iri).toList := by
  unfold NamespaceTable.shorten NamespaceTable.compact
  cases table.longestMatch iri with
  | none => exact h
  | some m => simp

section Facts

variable {table : NamespaceTable} {store : Store} (htable : table.Expandable)
  (hstore : store.Unambiguous) (hexpressible : store.Expressible table) (settings : Settings)

include hexpressible in
theorem Store.Expressible.of_mem {t : Triple} (ht : t ∈ store.triples) {iri : String}
    (h : iri ∈ t.subject.iris ++ t.predicate :: t.object.iris) : table.looksPrefixed iri = false :=
  hexpressible.looksPrefixed_eq iri (List.mem_flatMap.2 ⟨t, ht, h⟩)

include htable hstore hexpressible

/-- A subject is read off its reference. -/
theorem readTerm_subject {t : Triple} (ht : t ∈ store.triples) :
    readTerm (ontologyContext settings table) (referenceText table t.subject) = t.subject := by
  refine readTerm_referenceText htable settings (hstore.identifiable_subject ht) fun iri hiri => ?_
  refine hexpressible.of_mem ht (List.mem_append_left _ ?_)
  cases hs : t.subject <;> simp_all [Term.asIri, Term.iris]

theorem readTerm_object {t : Triple} (ht : t ∈ store.triples) (hresource : t.object.isResource) :
    readTerm (ontologyContext settings table) (referenceText table t.object) = t.object := by
  refine readTerm_referenceText htable settings (hstore.identifiable_object ht hresource)
    fun iri hiri => ?_
  refine hexpressible.of_mem ht (List.mem_append_right _ (List.mem_cons_of_mem _ ?_))
  cases ho : t.object <;> simp_all [Term.asIri, Term.iris]

/-- An object is read off its value. -/
theorem readValue_valueObject {t : Triple} (ht : t ∈ store.triples) :
    readValue (ontologyContext settings table) (valueObject table t.object) = some t.object := by
  have hreference : ∀ id : String, readValue (ontologyContext settings table)
      (.ofEntries [("@id", .string id)]) =
        some (readTerm (ontologyContext settings table) id) := by
    intro id
    simp [readValue, textAt, Json.get?_ofEntries, Json.asString?]
  have hresource := readTerm_object htable hstore hexpressible settings ht
  cases ho : t.object with
  | iri iri =>
    rw [ho] at hresource
    exact (hreference _).trans (congrArg some (hresource rfl))
  | blank label =>
    rw [ho] at hresource
    exact (hreference _).trans (congrArg some (hresource rfl))
  | literal l =>
    have hsingle := hexpressible.literal_single t ht l (by rw [ho]; rfl)
    obtain ⟨text, language, datatype⟩ := l
    cases language with
    | some language =>
      obtain rfl : datatype = none := by simpa using hsingle
      simp [valueObject, readValue, textAt, Json.get?_ofEntries, Json.asString?]
    | none =>
      cases datatype with
      | none => simp [valueObject, readValue, textAt, Json.get?_ofEntries, Json.asString?]
      | some datatype =>
        have hiri : table.looksPrefixed datatype = false := by
          refine hexpressible.of_mem ht (List.mem_append_right _ (List.mem_cons_of_mem _ ?_))
          simp [ho, Term.iris]
        simp [valueObject, readValue, textAt, Json.get?_ofEntries, Json.asString?,
          readIri_shorten htable settings hiri]

omit htable hstore in
/-- Keys other than that of types have a colon. -/
theorem key_encodeFact {t : Triple} (ht : t ∈ store.triples) :
    (encodeFact table t).1 = "@type" ∨ ':' ∈ (encodeFact table t).1.toList := by
  unfold encodeFact
  split
  · exact Or.inl rfl
  · exact Or.inr (colon_mem_shorten (hexpressible.predicate_colon t ht))

/-- **A fact is read as it was written.** -/
theorem readFact_encodeFact {t : Triple} (ht : t ∈ store.triples) :
    readFact (ontologyContext settings table) t.subject (encodeFact table t) = some t := by
  by_cases htype : t.predicate = Rdf.type ∧ t.object.asIri.isSome
  · have hencode : encodeFact table t = ("@type", .string (referenceText table t.object)) :=
      if_pos htype
    have hresource : t.object.isResource := by
      cases ho : t.object <;> simp_all [Term.asIri, Term.isResource]
    rw [hencode]
    show some (Triple.mk t.subject Rdf.type (readTerm _ (referenceText table t.object))) = _
    rw [readTerm_object htable hstore hexpressible settings ht hresource, ← htype.1]
  · have hencode : encodeFact table t = (table.shorten t.predicate, valueObject table t.object) :=
      if_neg htype
    have hcolon : ':' ∈ (table.shorten t.predicate).toList :=
      colon_mem_shorten (hexpressible.predicate_colon t ht)
    have hkey : table.shorten t.predicate ≠ "@type" := by
      intro h
      rw [h] at hcolon
      exact absurd hcolon (by decide)
    have hpredicate : table.looksPrefixed t.predicate = false :=
      hexpressible.of_mem ht (List.mem_append_right _ List.mem_cons_self)
    rw [hencode, readFact, if_neg hkey, readIri_shorten htable settings hpredicate,
      readValue_valueObject htable hstore hexpressible settings ht]
    rfl

/-! ## Nodes -/

omit htable hstore hexpressible in
/-- The values of a node are the values of its groups. -/
theorem memberValues_nodeObject {groups : Dictionary (List Json)} (h : "@id" ∉ groups.keys)
    (id : Json) : memberValues ((groups.mapValues Json.array).insert "@id" id) =
      some (listed groups) := by
  have hkeys : "@id" ∉ (groups.mapValues Json.array).keys := by
    unfold Dictionary.keys Dictionary.mapValues
    rw [List.map_map]
    exact h
  unfold memberValues
  rw [Dictionary.filter_insert_of_notMem hkeys]
  have hmap : (groups.mapValues Json.array).mapM keyedValues =
      some (groups.map fun group => group.2.map (group.1, ·)) := by
    apply mapM_eq_some_of_forall₂
    unfold Dictionary.mapValues
    rw [List.forall₂_map_left_iff, List.forall₂_map_right_iff, List.forall₂_same]
    intro group _
    rfl
  rw [hmap]
  exact congrArg some (List.flatMap_def ..).symm

/-- **A node is read as it was written**, but for the order of its facts. -/
theorem readNode_nodeObject {subject : Term} (hsubject : store.hasSubject subject) :
    ∃ facts, readNode (ontologyContext settings table)
        (nodeObject table subject (store.outgoing subject)) = some (subject, facts) ∧
      facts.Perm (store.outgoing subject) := by
  let context := ontologyContext settings table
  let groups := groupByKey ((store.outgoing subject).map (encodeFact table))
  have hid : readTerm context (referenceText table subject) = subject := by
    obtain ⟨t, ht, rfl⟩ := Store.hasSubject_iff.1 hsubject
    exact readTerm_subject htable hstore hexpressible settings ht
  have hkey : "@id" ∉ groups.keys := by
    apply notMem_keys_groupByKey
    rintro fact hfact hname
    obtain ⟨t, ht, rfl⟩ := List.mem_map.1 hfact
    rcases key_encodeFact hexpressible (Store.mem_outgoing.1 ht).1 with h | h
    · rw [hname] at h
      exact absurd h (by decide)
    · rw [hname] at h
      exact absurd h (by decide)
  -- the values stand in another order than the facts they encode
  have hwritten : List.Forall₂
      (fun value t => t ∈ store.outgoing subject ∧ value = encodeFact table t)
      ((store.outgoing subject).map (encodeFact table)) (store.outgoing subject) := by
    rw [List.forall₂_map_left_iff, List.forall₂_same]
    exact fun t ht => ⟨ht, rfl⟩
  obtain ⟨facts, hfacts, hperm⟩ :=
    List.perm_comp_forall₂ (perm_listed_groupByKey _) hwritten
  have hread : (listed groups).mapM (readFact context subject) = some facts := by
    refine mapM_eq_some_of_forall₂ (hfacts.imp ?_)
    rintro value t ⟨ht, rfl⟩
    obtain ⟨hmem, rfl⟩ := Store.mem_outgoing.1 ht
    exact readFact_encodeFact htable hstore hexpressible settings hmem
  refine ⟨facts, ?_, hperm⟩
  have htext : textAt "@id" (nodeObject table subject (store.outgoing subject)) =
      some (referenceText table subject) := by
    unfold textAt nodeObject
    rw [Json.get?_ofDictionary, Dictionary.get?_insert, if_pos rfl]
    rfl
  have hvalues := memberValues_nodeObject hkey (.string (referenceText table subject))
  have hobject : (nodeObject table subject (store.outgoing subject)).asObject? =
      some ((groups.mapValues Json.array).insert "@id" (.string (referenceText table subject))) :=
    rfl
  unfold readNode
  simp only [htext, hobject, Option.bind_eq_bind, Option.bind_some, hvalues]
  rw [hid, hread]
  rfl

/-- Nodes are read in their order. -/
theorem exists_readNodes {subjects : List Term} (h : ∀ s ∈ subjects, store.hasSubject s) :
    ∃ nodes, (subjects.map fun s => nodeObject table s (store.outgoing s)).mapM
        (readNode (ontologyContext settings table)) = some nodes ∧
      nodes.map (·.1) = subjects ∧
      (nodes.flatMap (·.2)).Perm (subjects.flatMap store.outgoing) := by
  induction subjects with
  | nil => exact ⟨[], rfl, rfl, List.Perm.nil⟩
  | cons s subjects ih =>
    obtain ⟨facts, hfacts, hperm⟩ :=
      readNode_nodeObject htable hstore hexpressible settings (h s List.mem_cons_self)
    obtain ⟨nodes, hnodes, rfl, hrest⟩ := ih fun s hs => h s (List.mem_cons_of_mem _ hs)
    refine ⟨(s, facts) :: nodes, ?_, rfl, hperm.append hrest⟩
    rw [List.map_cons, List.mapM_cons, hfacts, hnodes]
    rfl

end Facts

theorem Store.nodup_flatMap_outgoing (store : Store) {subjects : List Term} (h : subjects.Nodup) :
    (subjects.flatMap store.outgoing).Nodup := by
  refine List.nodup_flatMap.2 ⟨fun s _ => store.nodup_outgoing s, h.imp ?_⟩
  intro s s' hne t ht ht'
  exact hne ((Store.mem_outgoing.1 ht).2.symm.trans (Store.mem_outgoing.1 ht').2)

namespace Taxonomy

theorem nodup_fragmentSubjects (T : Taxonomy) (n : Node) : (T.fragmentSubjects n).Nodup := by
  have hkeys := T.blankSteps.nodup_map_key_breadthFirst []
    (n.term :: T.store.subjects Rdfs.domain n.term)
  exact (List.Nodup.of_map _ hkeys).filter _

/-! ## The main result -/

/-- **A fragment loses nothing.** Read with its own context, the fragment of a class gives its
subjects, each once, and just the facts of the store about them, each once. -/
theorem fragment_lossless (T : Taxonomy) (hT : T.store.Unambiguous)
    (htable : T.namespaces.Expandable) (hexpressible : T.store.Expressible T.namespaces)
    (settings : Settings) (c : Term) :
    ∃ nodes, readFragment (T.fragment settings (.ofClass c)) = some nodes ∧
      nodes.map (·.1) = T.fragmentSubjects (.ofClass c) ∧ (nodes.map (·.1)).Nodup ∧
      (nodes.flatMap (·.2)).Nodup ∧
      ∀ t, t ∈ nodes.flatMap (·.2) ↔ t ∈ T.store.triples ∧ t.subject ∈ nodes.map (·.1) := by
  have hsubjects : ∀ s ∈ T.fragmentSubjects (.ofClass c), T.store.hasSubject s :=
    fun s hs => (List.mem_filter.1 hs).2
  obtain ⟨nodes, hnodes, hmap, hperm⟩ :=
    exists_readNodes htable hT hexpressible settings hsubjects
  have hnodup := T.nodup_fragmentSubjects (.ofClass c)
  refine ⟨nodes, ?_, hmap, hmap ▸ hnodup, ?_, fun t => ?_⟩
  · have hcontext : (T.fragment settings (.ofClass c)).get? "@context" =
        some (ontologyContext settings T.namespaces) := by
      simp [fragment, Json.get?_ofEntries]
    have hgraph : (T.fragment settings (.ofClass c)).get? "@graph" =
        some (.array ((T.fragmentSubjects (.ofClass c)).map fun s =>
          nodeObject T.namespaces s (T.store.outgoing s))) := by
      simp [fragment, Json.get?_ofEntries]
    unfold readFragment
    rw [hcontext, hgraph]
    exact hnodes
  · exact hperm.nodup_iff.2 (T.store.nodup_flatMap_outgoing hnodup)
  · rw [hperm.mem_iff, hmap, List.mem_flatMap]
    constructor
    · rintro ⟨s, hs, houtgoing⟩
      obtain ⟨ht, rfl⟩ := Store.mem_outgoing.1 houtgoing
      exact ⟨ht, hs⟩
    · rintro ⟨ht, hs⟩
      exact ⟨t.subject, hs, Store.mem_outgoing.2 ⟨ht, rfl⟩⟩

/-- A house with types of both sorts, and a property of it whose comment is a node of its own. -/
def houses : Taxonomy where
  store := .ofList
    [⟨.iri "http://x/o#House", Rdf.type, .iri Rdfs.classType⟩,
     ⟨.iri "http://x/o#House", Rdf.type, .blank "type"⟩,
     ⟨.iri "http://x/o#House", Rdfs.label, .literal { text := "talo", language := some "fi" }⟩,
     ⟨.iri "http://x/o#roof", Rdfs.domain, .iri "http://x/o#House"⟩,
     ⟨.iri "http://x/o#roof", Rdfs.comment, .blank "comment"⟩,
     ⟨.blank "comment", Rdf.value, .literal { text := "1", datatype := some Xsd.integer }⟩]
  namespaces := .bindAll .empty [("o", "http://x/o#"), ("rdf", Rdf.namespaceIri)]

/-- The text of the comment is read behind the property and the blank node. -/
theorem houses_comment_read :
    houses.store.Unambiguous ∧ houses.namespaces.Expandable ∧
      houses.store.Expressible houses.namespaces ∧
      ∃ nodes, readFragment (houses.fragment {} (.ofClass (.iri "http://x/o#House"))) = some nodes ∧
        ⟨.blank "comment", Rdf.value, .literal { text := "1", datatype := some Xsd.integer }⟩ ∈
          nodes.flatMap (·.2) := by
  have hT : houses.store.Unambiguous := by decide +kernel
  have htable : houses.namespaces.Expandable :=
    ⟨NamespaceTable.prefixesDistinct_of_bindAll rfl,
      by decide +kernel, by decide +kernel, by decide +kernel⟩
  have hexpressible : houses.store.Expressible houses.namespaces :=
    ⟨by decide +kernel, by decide +kernel, by decide +kernel⟩
  obtain ⟨nodes, hnodes, hsubjects, -, -, hfacts⟩ :=
    fragment_lossless houses hT htable hexpressible {} (.iri "http://x/o#House")
  refine ⟨hT, htable, hexpressible, nodes, hnodes, (hfacts _).2 ⟨by decide +kernel, ?_⟩⟩
  rw [hsubjects]
  refine List.mem_filter.2 ⟨?_, by decide +kernel⟩
  have hfaithful : houses.blankSteps.FaithfulOn fun _ => True :=
    ⟨fun _ _ _ _ => trivial, fun _ _ _ _ h => h⟩
  have hroof : Term.iri "http://x/o#roof" ∈ Term.iri "http://x/o#House" ::
      houses.store.subjects Rdfs.domain (.iri "http://x/o#House") := by
    decide
  have hstep : houses.blankSteps.Fresh [] (.iri "http://x/o#roof") (.blank "comment") :=
    ⟨by decide, List.not_mem_nil⟩
  exact Steps.mem_breadthFirst hfaithful (fun _ _ => trivial) hroof List.not_mem_nil (.single hstep)

end Taxonomy

end TaxonomyPress
