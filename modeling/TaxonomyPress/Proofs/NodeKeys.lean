import TaxonomyPress.Taxonomy.Walk
import Mathlib.Data.List.Nodup
import Mathlib.Data.List.Perm.Subperm

/-!
# Node keys tell nodes apart

* `Term.Identifiable` : resources that their identifier tells apart (`Term.identifier_inj`);
* `Node.key_inj` : nodes of such terms are equal when their keys are;
* `Store.Unambiguous` : the subjects of the store are resources, and no IRI reads like a blank node.
  Loading yields only such stores, and all ends of their walks are identifiable;
* `Store.length_le_of_subjects` : there are no more nodes of one kind than subjects.
-/

namespace TaxonomyPress

/-! ## Identifiers -/

/-- A resource whose identifier no resource of the other kind can have. -/
structure Term.Identifiable (t : Term) : Prop where
  isResource : t.isResource
  notBlankLike : ∀ i ∈ t.asIri, Text.startsWith "_:" i = false

theorem Term.identifier_inj {s t : Term} (hs : s.Identifiable) (ht : t.Identifiable) :
    s.identifier = t.identifier ↔ s = t := by
  refine ⟨fun h => ?_, congrArg _⟩
  have hne : ∀ {i label : String}, (Term.iri i).Identifiable → i ≠ "_:" ++ label := by
    rintro i label hi rfl
    have hstart := hi.notBlankLike ("_:" ++ label) rfl
    rw [Text.startsWith_append] at hstart
    cases hstart
  cases s with
  | iri i =>
    cases t with
    | iri j => exact congrArg Term.iri h
    | blank label => exact absurd h (hne hs)
    | literal l => exact absurd ht.isResource Bool.false_ne_true
  | blank label =>
    cases t with
    | iri j => exact absurd h.symm (hne ht)
    | blank label' =>
      have hl : label = label' := (String.append_right_inj "_:").1 h
      rw [hl]
    | literal l => exact absurd ht.isResource Bool.false_ne_true
  | literal l => exact absurd hs.isResource Bool.false_ne_true

/-! ## Keys -/

/-- Keys determine kind and identifier. -/
theorem Node.identifier_eq_of_key_eq {m n : Node} (h : m.key = n.key) :
    m.kind = n.kind ∧ m.identifier = n.identifier := by
  constructor
  · rw [← key_kind m, ← key_kind n, h]
  · rw [← key_append m, ← key_append n, h]

theorem Node.key_inj {m n : Node} (hm : m.term.Identifiable) (hn : n.term.Identifiable) :
    m.key = n.key ↔ m = n := by
  refine ⟨fun h => ?_, congrArg _⟩
  obtain ⟨hkind, hid⟩ := Node.identifier_eq_of_key_eq h
  have hterm : m.term = n.term := (Term.identifier_inj hm hn).1 hid
  obtain ⟨kind, term⟩ := m
  obtain ⟨kind', term'⟩ := n
  exact congr (congrArg Node.mk hkind) hterm

theorem Node.ofClass_term {n : Node} (h : n.kind = .classNode) : Node.ofClass n.term = n := by
  obtain ⟨kind, term⟩ := n
  exact congrArg (Node.mk · term) h.symm

/-! ## Stores -/

/-- Every subject is a resource, and no IRI begins like a blank node. -/
structure Store.Unambiguous (store : Store) : Prop where
  subject_isResource : ∀ t ∈ store.triples, t.subject.isResource
  notBlankLike : ∀ term ∈ store.terms, ∀ i ∈ term.asIri, Text.startsWith "_:" i = false

namespace Store

instance (store : Store) : Decidable store.Unambiguous :=
  decidable_of_iff
    ((∀ t ∈ store.triples, t.subject.isResource) ∧
      ∀ term ∈ store.terms, ∀ i ∈ term.asIri, Text.startsWith "_:" i = false)
    ⟨fun ⟨h₁, h₂⟩ => ⟨h₁, h₂⟩, fun ⟨h₁, h₂⟩ => ⟨h₁, h₂⟩⟩

variable {store : Store}

theorem Unambiguous.identifiable_subject (h : store.Unambiguous) {t : Triple}
    (ht : t ∈ store.triples) : t.subject.Identifiable :=
  ⟨h.subject_isResource t ht, h.notBlankLike t.subject (subject_mem_terms ht)⟩

theorem Unambiguous.identifiable_object (h : store.Unambiguous) {t : Triple}
    (ht : t ∈ store.triples) (hr : t.object.isResource) : t.object.Identifiable :=
  ⟨hr, h.notBlankLike t.object (object_mem_terms ht)⟩

/-- Nodes of one kind with facts of their own are no more than the subjects. -/
theorem length_le_of_subjects {kind : NodeKind} {nodes : List Node} (hnodup : nodes.Nodup)
    (h : ∀ n ∈ nodes, n.kind = kind ∧ store.hasSubject n.term) :
    nodes.length ≤ (distinct (store.triples.map Triple.subject)).length := by
  have hterms : (nodes.map Node.term).Nodup := by
    refine List.Nodup.map_on ?_ hnodup
    rintro ⟨k, t⟩ ha ⟨k', t'⟩ hb hterm
    have hkind : k = k' := (h _ ha).1.trans (h _ hb).1.symm
    exact congr (congrArg Node.mk hkind) hterm
  have hsub : nodes.map Node.term ⊆ distinct (store.triples.map Triple.subject) := by
    intro term hterm
    obtain ⟨n, hn, rfl⟩ := List.mem_map.1 hterm
    obtain ⟨t, ht, hsubject⟩ := hasSubject_iff.1 (h n hn).2
    exact mem_distinct.2 (List.mem_map.2 ⟨t, ht, hsubject⟩)
  have hle := (List.subperm_of_subset hterms hsub).length_le
  rwa [List.length_map] at hle

end Store

end TaxonomyPress
