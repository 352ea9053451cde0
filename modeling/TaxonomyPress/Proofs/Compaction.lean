import TaxonomyPress.Proofs.PrefixedNames
import TaxonomyPress.Proofs.Traversal

/-!
# Compact names, their IRIs and their parts

A table shortens an IRI with its longest bound namespace. What it writes expands to the IRI again, and
is cut where it was joined.

* `Text.utf8ByteSize_le_iff` : of two beginnings of one text, the longer in bytes is the longer one;
* `NamespaceTable.ShortenedBy` : the binding that an IRI is shortened with, whose namespace is longest, and
  which is the last with this namespace (`NamespaceTable.longestMatch_eq_some_iff`);
* `NamespaceTable.ShortenedBy.split_eq` : prefix and local name under a bound namespace;
* `NamespaceTable.map_bindings_bindAll` : prefixes stand in the order in which they were first bound;
* `NamespaceTable.compaction_agrees` : compacting, expanding and splitting agree on every table.
-/

namespace TaxonomyPress

/-! ## Beginnings of one text -/

namespace Text

variable {a b x y : String}

/-- Of two beginnings of a text one begins with the other. -/
theorem append_or_append_of_append_eq (h : a ++ x = b ++ y) : (∃ c, b = a ++ c) ∨ ∃ c, a = b ++ c := by
  have hlist : a.toList ++ x.toList = b.toList ++ y.toList := by
    rw [← String.toList_append, h, String.toList_append]
  rcases List.append_eq_append_iff.1 hlist with ⟨c, hc, -⟩ | ⟨c, hc, -⟩
  · exact Or.inl ⟨String.ofList c, String.toList_inj.1 (by simp [hc])⟩
  · exact Or.inr ⟨String.ofList c, String.toList_inj.1 (by simp [hc])⟩

theorem eq_of_length_eq (h : a ++ x = b ++ y) (hlength : a.length = b.length) : a = b := by
  rcases append_or_append_of_append_eq h with ⟨c, rfl⟩ | ⟨c, rfl⟩
  · rw [String.length_append] at hlength
    rw [String.length_eq_zero_iff.1 (by omega : c.length = 0), String.append_empty]
  · rw [String.length_append] at hlength
    rw [String.length_eq_zero_iff.1 (by omega : c.length = 0), String.append_empty]

theorem utf8ByteSize_le_iff (h : a ++ x = b ++ y) :
    a.utf8ByteSize ≤ b.utf8ByteSize ↔ a.length ≤ b.length := by
  rcases append_or_append_of_append_eq h with ⟨c, rfl⟩ | ⟨c, rfl⟩
  · simp [String.utf8ByteSize_append, String.length_append]
  · rw [String.utf8ByteSize_append, String.length_append]
    by_cases hc : c = ""
    · simp [hc]
    · have hbytes : c.utf8ByteSize ≠ 0 := mt String.utf8ByteSize_eq_zero_iff.1 hc
      have hlength : c.length ≠ 0 := mt String.length_eq_zero_iff.1 hc
      omega

end Text

namespace NamespaceTable

variable {table : NamespaceTable} {iri : String} {m m' : Match}

/-! ## The binding that shortens an IRI -/

/-- `iri` lies in the namespace of `m`, no longer bound namespace holds it, and of the prefixes bound to
this one `m` has the last. -/
structure ShortenedBy (table : NamespaceTable) (iri : String) (m : Match) : Prop where
  namespace_ne : m.namespaceIri ≠ ""
  append_eq : m.namespaceIri ++ m.localName = iri
  longest : ∀ binding ∈ table.bindings, binding.2 ≠ "" → Text.startsWith binding.2 iri →
    binding.2.length ≤ m.namespaceIri.length
  last : (table.bindings.filter (·.2 = m.namespaceIri)).getLast? = some (m.name, m.namespaceIri)

theorem ShortenedBy.mem_bindings (h : table.ShortenedBy iri m) :
    (m.name, m.namespaceIri) ∈ table.bindings :=
  List.mem_of_mem_filter (List.mem_of_mem_getLast? h.last)

theorem ShortenedBy.startsWith (h : table.ShortenedBy iri m) :
    Text.startsWith m.namespaceIri iri :=
  h.append_eq ▸ Text.startsWith_append m.namespaceIri m.localName

/-- Only one match is like this. -/
theorem ShortenedBy.unique (h : table.ShortenedBy iri m) (h' : table.ShortenedBy iri m') : m = m' := by
  obtain ⟨name, namespaceIri, localName⟩ := m
  obtain ⟨name', namespaceIri', localName'⟩ := m'
  have happend : namespaceIri ++ localName = namespaceIri' ++ localName' :=
    h.append_eq.trans h'.append_eq.symm
  have hlength : namespaceIri.length = namespaceIri'.length :=
    Nat.le_antisymm (h'.longest _ h.mem_bindings h.namespace_ne h.startsWith)
      (h.longest _ h'.mem_bindings h'.namespace_ne h'.startsWith)
  obtain rfl := Text.eq_of_length_eq happend hlength
  obtain rfl := (String.append_right_inj namespaceIri).1 happend
  obtain ⟨rfl, -⟩ := Prod.mk.inj (Option.some.inj (h.last.symm.trans h'.last))
  rfl

theorem shortenedBy_longestMatch (h : table.longestMatch iri = some m) : table.ShortenedBy iri m := by
  unfold longestMatch at h
  split at h
  · cases h
  rename_i first others hmatches
  obtain ⟨before, kept, after, hkept, hsplit, hbefore, hafter⟩ := exists_of_foldl_closer first others
  obtain rfl : kept = m := hkept.symm.trans (Option.some.inj h)
  obtain ⟨front, binding, back, hbindings, hmatch, rfl, rfl⟩ :=
    filterMap_eq_append_cons_iff.1 (hmatches.trans hsplit)
  obtain ⟨hne, rfl, happend⟩ := matchBinding_eq_some_iff.1 hmatch
  refine ⟨hne, happend, fun b hb hbne hstart => ?_, ?_⟩
  · obtain ⟨other, hother⟩ : ∃ other, matchBinding iri b = some other := by
      rw [← Option.isSome_iff_exists, matchBinding_isSome, hstart]
      simpa using hbne
    obtain ⟨-, rfl, hb'⟩ := matchBinding_eq_some_iff.1 hother
    rw [← Text.utf8ByteSize_le_iff (hb'.trans happend.symm)]
    rw [hbindings, List.mem_append, List.mem_cons] at hb
    rcases hb with hb | hb | hb
    · exact hbefore other (List.mem_filterMap.2 ⟨_, hb, hother⟩)
    · exact Nat.le_of_eq (congrArg String.utf8ByteSize (Prod.mk.inj hb).2)
    · exact Nat.le_of_lt (hafter other (List.mem_filterMap.2 ⟨_, hb, hother⟩))
  -- What comes after the kept match is strictly shorter, so no binding there has its namespace.
  · have hback : back.filter (·.2 = kept.namespaceIri) = [] := by
      refine List.filter_eq_nil_iff.2 fun ⟨name, namespaceIri⟩ hb hsame => ?_
      obtain rfl : namespaceIri = kept.namespaceIri := of_decide_eq_true hsame
      have hother : matchBinding iri (name, kept.namespaceIri) =
          some ⟨name, kept.namespaceIri, kept.localName⟩ :=
        matchBinding_eq_some_iff.2 ⟨hne, rfl, happend⟩
      exact absurd (hafter _ (List.mem_filterMap.2 ⟨_, hb, hother⟩)) (Nat.lt_irrefl _)
    rw [hbindings, List.filter_append, List.filter_cons_of_pos (by simp), hback, List.getLast?_concat]

theorem longestMatch_eq_some_iff : table.longestMatch iri = some m ↔ table.ShortenedBy iri m := by
  refine ⟨shortenedBy_longestMatch, fun h => ?_⟩
  cases hmatch : table.longestMatch iri with
  | none =>
    rw [longestMatch_eq_none_iff, covers, List.any_eq_false] at hmatch
    exact absurd (hmatch _ h.mem_bindings) (by simp [h.namespace_ne, h.startsWith])
  | some m' => rw [(shortenedBy_longestMatch hmatch).unique h]

theorem compact_eq_some_iff {name : String} : table.compact iri = some name ↔
    ∃ m, table.ShortenedBy iri m ∧ name = m.name ++ ":" ++ m.localName := by
  simp only [compact, Option.map_eq_some_iff, longestMatch_eq_some_iff, eq_comm (a := name)]

/-! ## Prefix and local name -/

theorem ShortenedBy.split_eq (h : table.ShortenedBy iri m) : table.split iri =
    if m.localName = "" then .error ⟨iri⟩ else .ok (m.name, m.localName) := by
  rw [split, longestMatch_eq_some_iff.2 h]

theorem ShortenedBy.localName_eq_empty_iff (h : table.ShortenedBy iri m) :
    m.localName = "" ↔ ¬ m.namespaceIri.length < iri.length := by
  rw [← h.append_eq, String.length_append, ← String.length_eq_zero_iff]
  omega

/-! ## The order of prefixes -/

theorem map_bindings_bindAll (bindings : List (String × String)) :
    (empty.bindAll bindings).bindings.map (·.1) = distinct (bindings.map (·.1)) := by
  induction bindings using List.reverseRecOn with
  | nil => rfl
  | append_singleton bindings binding ih =>
    rw [bindAll, List.foldl_concat, List.map_append, List.map_singleton, distinct_concat]
    show (rebind _ _ (empty.bindAll bindings).bindings).map _ = _
    rw [map_rebind, ih]
    simp only [mem_distinct]

/-! ## The main result -/

/-- **Compacting, expanding and splitting agree**, however a table has been bound, if no prefix has a
colon. A compact name stands for the IRI it was made from and for no other. It is made just when a bound
namespace holds the IRI, with the longest such namespace and the last prefix that has it, in the order in
which the prefixes were first bound. The parts of the IRI are those of its compact name, unless it is the
namespace itself, which has none. -/
theorem compaction_agrees (bindings : List (String × String)) (htable : empty.bindAll bindings = table)
    (hcolon : table.ColonFree) (iri : String) :
    (∀ name, table.compact iri = some name →
      table.expand name = some iri ∧ table.resolveReference name = iri ∧
        ∀ other, table.compact other = some name → other = iri) ∧
      ((∃ name, table.compact iri = some name) ↔
        ∃ binding ∈ table.bindings, binding.2 ≠ "" ∧ Text.startsWith binding.2 iri) ∧
      (∀ name, table.compact iri = some name ↔
        ∃ m, table.ShortenedBy iri m ∧ name = m.name ++ ":" ++ m.localName) ∧
      table.bindings.map (·.1) = distinct (bindings.map (·.1)) ∧
      ∀ m, table.ShortenedBy iri m →
        (m.namespaceIri.length < iri.length → table.split iri = .ok (m.name, m.localName)) ∧
        (iri = m.namespaceIri → table.split iri = .error ⟨iri⟩) := by
  have hexpand : ∀ {i name}, table.compact i = some name → table.expand name = some i :=
    expand_compact (prefixesDistinct_of_bindAll htable) hcolon
  refine ⟨fun name hname => ⟨hexpand hname, ?_, fun other hother => ?_⟩, ?_,
    fun name => compact_eq_some_iff, htable ▸ map_bindings_bindAll bindings,
    fun m hm => ⟨fun hlonger => ?_, ?_⟩⟩
  · rw [resolveReference, hexpand hname, Option.getD_some]
  · exact Option.some.inj ((hexpand hother).symm.trans (hexpand hname))
  · rw [← Option.isSome_iff_exists, ← Option.ne_none_iff_isSome, ne_eq, compact_eq_none_iff,
      Bool.not_eq_false, covers, List.any_eq_true]
    simp
  · rw [hm.split_eq, if_neg fun hempty => hm.localName_eq_empty_iff.1 hempty hlonger]
  · rintro rfl
    rw [hm.split_eq, if_pos (hm.localName_eq_empty_iff.2 (Nat.lt_irrefl _))]

/-- One namespace within another, with two prefixes, of which the first has had another namespace. -/
def overlapping : List (String × String) :=
  [("v", "https://example.org/old#"), ("ex", "https://example.org/"),
   ("exv", "https://example.org/vocab#"), ("v", "https://example.org/vocab#")]

/-- The prefix that was bound first keeps its place, so the other one is the last. -/
theorem overlapping_agrees :
    (empty.bindAll overlapping).ColonFree ∧
      (empty.bindAll overlapping).ShortenedBy "https://example.org/vocab#Thing:a/b"
        ⟨"exv", "https://example.org/vocab#", "Thing:a/b"⟩ ∧
      (empty.bindAll overlapping).compact "https://example.org/vocab#Thing:a/b" =
        some "exv:Thing:a/b" ∧
      (empty.bindAll overlapping).expand "exv:Thing:a/b" =
        some "https://example.org/vocab#Thing:a/b" ∧
      (empty.bindAll overlapping).split "https://example.org/vocab#Thing:a/b" =
        .ok ("exv", "Thing:a/b") ∧
      (empty.bindAll overlapping).split "https://example.org/vocab#" =
        .error ⟨"https://example.org/vocab#"⟩ := by
  have hcolon : (empty.bindAll overlapping).ColonFree := by decide
  have hthing : (empty.bindAll overlapping).ShortenedBy "https://example.org/vocab#Thing:a/b"
      ⟨"exv", "https://example.org/vocab#", "Thing:a/b"⟩ :=
    ⟨by decide, by decide, by decide +kernel, by decide +kernel⟩
  have hwhole : (empty.bindAll overlapping).ShortenedBy "https://example.org/vocab#"
      ⟨"exv", "https://example.org/vocab#", ""⟩ :=
    ⟨by decide, by decide, by decide, by decide⟩
  obtain ⟨hback, -, hmatch, -, hsplit⟩ :=
    compaction_agrees overlapping rfl hcolon "https://example.org/vocab#Thing:a/b"
  have hcompact := (hmatch "exv:Thing:a/b").2 ⟨_, hthing, by decide⟩
  obtain ⟨-, -, -, -, hmalformed⟩ :=
    compaction_agrees overlapping rfl hcolon "https://example.org/vocab#"
  exact ⟨hcolon, hthing, hcompact, (hback _ hcompact).1, (hsplit _ hthing).1 (by decide),
    (hmalformed _ hwhole).2 rfl⟩

end NamespaceTable

end TaxonomyPress
