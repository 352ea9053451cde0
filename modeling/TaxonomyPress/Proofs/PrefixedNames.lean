import TaxonomyPress.Namespaces
import TaxonomyPress.Proofs.Dictionaries
import TaxonomyPress.Proofs.Pieces
import Mathlib.Data.List.Induction

/-!
# Prefixed names and the IRIs they stand for

* `NamespaceTable.PrefixesDistinct` : each prefix is bound once, which every sequence of bindings
  keeps (`NamespaceTable.prefixesDistinct_bindAll`);
* `NamespaceTable.covers` : whether an IRI lies in a bound namespace, which decides whether it has a
  prefixed name (`NamespaceTable.longestMatch_eq_none_iff`);
* `NamespaceTable.expand_compact` : a prefixed name expands to the IRI it was made from;
* `NamespaceTable.resolveReference_shorten` : so does the short form of every IRI, unless the IRI
  itself looks like a prefixed name.
-/

namespace TaxonomyPress

namespace NamespaceTable

variable {table : NamespaceTable}

/-! ## Bindings -/

/-- Each prefix is bound once. -/
def PrefixesDistinct (table : NamespaceTable) : Prop := (table.bindings.map (·.1)).Nodup

theorem map_rebind (name iri : String) (bindings : List (String × String)) :
    (rebind name iri bindings).map (·.1) =
      if name ∈ bindings.map (·.1) then bindings.map (·.1) else bindings.map (·.1) ++ [name] := by
  induction bindings with
  | nil => rfl
  | cons binding rest ih =>
    obtain ⟨n, i⟩ := binding
    rw [rebind]
    by_cases hn : n = name
    · simp [hn]
    · rw [if_neg hn, List.map_cons, ih]
      by_cases hmem : name ∈ rest.map (·.1)
      · simp [hmem]
      · have hnot : name ∉ ((n, i) :: rest).map (·.1) := by
          intro h
          rcases List.mem_cons.1 h with h | h
          · exact hn h.symm
          · exact hmem h
        rw [if_neg hmem, if_neg hnot]
        rfl

theorem prefixesDistinct_empty : empty.PrefixesDistinct := List.nodup_nil

theorem PrefixesDistinct.bind (h : table.PrefixesDistinct) (name iri : String) :
    (table.bind name iri).PrefixesDistinct := by
  unfold PrefixesDistinct NamespaceTable.bind
  rw [map_rebind]
  split
  · exact h
  · rename_i hname
    refine List.nodup_append.2 ⟨h, List.nodup_singleton name, ?_⟩
    rintro a ha b hb rfl
    exact hname (List.mem_singleton.1 hb ▸ ha)

theorem prefixesDistinct_bindAll (h : table.PrefixesDistinct) (bindings : List (String × String)) :
    (table.bindAll bindings).PrefixesDistinct := by
  induction bindings generalizing table with
  | nil => exact h
  | cons binding rest ih => exact ih (h.bind binding.1 binding.2)

/-- However a table has been bound, its prefixes are distinct. -/
theorem prefixesDistinct_of_bindAll {bindings : List (String × String)}
    (h : empty.bindAll bindings = table) : table.PrefixesDistinct :=
  h ▸ prefixesDistinct_bindAll prefixesDistinct_empty bindings

theorem iriFor_eq_some_iff (h : table.PrefixesDistinct) {name iri : String} :
    table.iriFor name = some iri ↔ (name, iri) ∈ table.bindings := by
  unfold iriFor
  rw [Option.map_eq_some_iff]
  constructor
  · rintro ⟨binding, hfind, rfl⟩
    obtain ⟨hmem, rfl⟩ := (find?_key_eq_some_iff h).1 hfind
    exact hmem
  · intro hmem
    exact ⟨(name, iri), (find?_key_eq_some_iff h).2 ⟨hmem, rfl⟩, rfl⟩

/-! ## Matches -/

theorem matchBinding_eq_some_iff {iri : String} {binding : String × String} {m : Match} :
    matchBinding iri binding = some m ↔
      binding.2 ≠ "" ∧ binding = (m.name, m.namespaceIri) ∧ m.namespaceIri ++ m.localName = iri := by
  obtain ⟨name, namespaceIri⟩ := binding
  obtain ⟨n, i, rest⟩ := m
  unfold matchBinding
  by_cases hempty : namespaceIri = ""
  · simp [hempty]
  · simp only [hempty, if_false, Option.map_eq_some_iff, Text.dropPrefix_eq_some_iff, Match.mk.injEq,
      ne_eq, not_false_eq_true, true_and, Prod.mk.injEq]
    constructor
    · rintro ⟨_, h, rfl, rfl, rfl⟩
      exact ⟨⟨rfl, rfl⟩, h⟩
    · rintro ⟨⟨rfl, rfl⟩, h⟩
      exact ⟨rest, h, rfl, rfl, rfl⟩

/-- The match kept is one of the longest, and longer than all that follow it. -/
theorem exists_of_foldl_closer (first : Match) (others : List Match) : ∃ before m after,
    others.foldl Match.closer first = m ∧ first :: others = before ++ m :: after ∧
      (∀ x ∈ before, x.namespaceIri.utf8ByteSize ≤ m.namespaceIri.utf8ByteSize) ∧
      ∀ x ∈ after, x.namespaceIri.utf8ByteSize < m.namespaceIri.utf8ByteSize := by
  induction others using List.reverseRecOn with
  | nil => exact ⟨[], first, [], rfl, rfl, by simp, by simp⟩
  | append_singleton others next ih =>
    obtain ⟨before, m, after, hm, hsplit, hbefore, hafter⟩ := ih
    rw [List.foldl_concat, hm, Match.closer, ← List.cons_append, hsplit]
    split_ifs with hle
    · refine ⟨before ++ m :: after, next, [], rfl, rfl, fun x hx => ?_, by simp⟩
      rcases List.mem_append.1 hx with hx | hx
      · exact Nat.le_trans (hbefore x hx) hle
      · rcases List.mem_cons.1 hx with rfl | hx
        · exact hle
        · exact Nat.le_trans (Nat.le_of_lt (hafter x hx)) hle
    · refine ⟨before, m, after ++ [next], rfl, by simp, hbefore, fun x hx => ?_⟩
      rcases List.mem_append.1 hx with hx | hx
      · exact hafter x hx
      · obtain rfl := List.mem_singleton.1 hx
        omega

/-- The longest match is one of a binding. -/
theorem longestMatch_eq_some {iri : String} {m : Match} (h : table.longestMatch iri = some m) :
    (m.name, m.namespaceIri) ∈ table.bindings ∧ m.namespaceIri ++ m.localName = iri := by
  unfold longestMatch at h
  have hmem : m ∈ table.bindings.filterMap (matchBinding iri) := by
    split at h
    · cases h
    · rename_i first others hmatches
      obtain ⟨before, m', after, hm, hsplit, -, -⟩ := exists_of_foldl_closer first others
      obtain rfl : m' = m := hm.symm.trans (Option.some.inj h)
      rw [hmatches, hsplit]
      simp
  obtain ⟨binding, hbinding, hmatch⟩ := List.mem_filterMap.1 hmem
  obtain ⟨-, rfl, hiri⟩ := matchBinding_eq_some_iff.1 hmatch
  exact ⟨hbinding, hiri⟩

/-- Whether an IRI lies in a bound namespace. The empty text is no namespace. -/
def covers (table : NamespaceTable) (iri : String) : Bool :=
  table.bindings.any fun binding => binding.2 ≠ "" && Text.startsWith binding.2 iri

theorem matchBinding_isSome {iri : String} {binding : String × String} :
    (matchBinding iri binding).isSome = (binding.2 ≠ "" && Text.startsWith binding.2 iri) := by
  unfold matchBinding Text.startsWith
  by_cases hempty : binding.2 = ""
  · simp [hempty]
  · simp [hempty]

theorem longestMatch_eq_none_iff {iri : String} :
    table.longestMatch iri = none ↔ table.covers iri = false := by
  have hnil : table.longestMatch iri = none ↔ table.bindings.filterMap (matchBinding iri) = [] := by
    unfold longestMatch
    split
    · rename_i h
      simp [h]
    · rename_i h
      simp [h]
  rw [hnil, List.filterMap_eq_nil_iff, covers, List.any_eq_false]
  refine forall₂_congr fun binding _ => ?_
  rw [← matchBinding_isSome]
  simp

theorem compact_eq_none_iff {iri : String} : table.compact iri = none ↔ table.covers iri = false := by
  rw [compact, Option.map_eq_none_iff, longestMatch_eq_none_iff]

/-! ## There and back -/

/-- No prefix has a colon. -/
def ColonFree (table : NamespaceTable) : Prop := ∀ binding ∈ table.bindings, ':' ∉ binding.1.toList

instance (table : NamespaceTable) : Decidable table.ColonFree :=
  inferInstanceAs (Decidable (∀ binding ∈ table.bindings, ':' ∉ binding.1.toList))

theorem expand_eq (name : String) : table.expand name =
    (Text.cutAtFirst ':' name).bind fun parts => (table.iriFor parts.1).map (· ++ parts.2) := by
  unfold expand
  cases Text.cutAtFirst ':' name with
  | none => rfl
  | some parts =>
    rw [Option.bind_some]
    show (table.iriFor parts.1 >>= fun iri => pure (iri ++ parts.2)) = _
    cases table.iriFor parts.1 <;> rfl

/-- A prefixed name is cut where it was joined. -/
theorem cutAtFirst_compact (hcolon : table.ColonFree) {iri name : String}
    (h : table.compact iri = some name) : ∃ front namespaceIri rest,
      Text.cutAtFirst ':' name = some (front, rest) ∧ (front, namespaceIri) ∈ table.bindings ∧
        namespaceIri ++ rest = iri := by
  obtain ⟨m, hm, rfl⟩ := Option.map_eq_some_iff.1 h
  obtain ⟨hbinding, hiri⟩ := longestMatch_eq_some hm
  exact ⟨m.name, m.namespaceIri, m.localName,
    Text.cutAtFirst_append m.localName rfl (hcolon _ hbinding), hbinding, hiri⟩

/-- **A prefixed name expands to the IRI it was made from.** -/
theorem expand_compact (hdistinct : table.PrefixesDistinct) (hcolon : table.ColonFree)
    {iri name : String} (h : table.compact iri = some name) : table.expand name = some iri := by
  obtain ⟨front, namespaceIri, rest, hcut, hbinding, rfl⟩ := cutAtFirst_compact hcolon h
  rw [expand_eq, hcut, Option.bind_some, (iriFor_eq_some_iff hdistinct).2 hbinding]
  rfl

/-- An IRI outside the bound namespaces that begins with a bound prefix and a colon. -/
def looksPrefixed (table : NamespaceTable) (iri : String) : Bool :=
  !table.covers iri && (Text.cutAtFirst ':' iri).any fun parts => (table.iriFor parts.1).isSome

theorem expand_eq_none {iri : String} (hcovers : table.covers iri = false)
    (h : table.looksPrefixed iri = false) : table.expand iri = none := by
  rw [looksPrefixed, hcovers] at h
  rw [expand_eq]
  cases hcut : Text.cutAtFirst ':' iri with
  | none => rfl
  | some parts =>
    have hfront : table.iriFor parts.1 = none := by simpa [hcut] using h
    rw [Option.bind_some, hfront]
    rfl

/-- The short form of an IRI stands for it. -/
theorem resolveReference_shorten (hdistinct : table.PrefixesDistinct) (hcolon : table.ColonFree)
    {iri : String} (h : table.looksPrefixed iri = false) :
    table.resolveReference (table.shorten iri) = iri := by
  unfold resolveReference shorten
  cases hcompact : table.compact iri with
  | some name =>
    rw [Option.getD_some, expand_compact hdistinct hcolon hcompact]
    rfl
  | none =>
    rw [Option.getD_none, expand_eq_none (compact_eq_none_iff.1 hcompact) h]
    rfl

end NamespaceTable

end TaxonomyPress
