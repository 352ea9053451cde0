import TaxonomyPress.Json
import TaxonomyPress.Proofs.Order
import Mathlib.Data.List.Nodup

/-!
# Entries of dictionaries

* `find?_key_eq_some_iff` : among distinct keys, a look-up finds just the entry of its key;
* `Dictionary.Ordered` : the keys increase strictly, which insertions keep
  (`Dictionary.ordered_insert`), so that every dictionary of entries has it (`ordered_ofList`);
* `Dictionary.keys_insertAll_congr` : the keys after insertions depend on keys only;
* `Dictionary.get?_insertAll_of_last` : what the last insertion at a key leaves there; so the last entry
  of a key is the one that is found (`get?_ofList_eq_some_iff`);
* `Json.get?_ofDictionary`, `Json.get?_ofEntries`, `Json.get?_ofEntries_append` : the members of objects;
  `textAt` : those that are texts.
-/

namespace TaxonomyPress

open Std

/-- Among distinct keys, a look-up finds just the entry of its key. -/
theorem find?_key_eq_some_iff {κ α : Type} [DecidableEq κ] {entries : List (κ × α)}
    (h : (entries.map (·.1)).Nodup) {key : κ} {entry : κ × α} :
    entries.find? (·.1 = key) = some entry ↔ entry ∈ entries ∧ entry.1 = key := by
  constructor
  · intro hfind
    exact ⟨List.mem_of_find?_eq_some hfind, by simpa using List.find?_some hfind⟩
  · rintro ⟨hmem, rfl⟩
    cases hfind : entries.find? (·.1 = entry.1) with
    | none => simpa using List.find?_eq_none.1 hfind entry hmem
    | some other =>
      have hkey : other.1 = entry.1 := by simpa using List.find?_some hfind
      have hother : other ∈ entries := List.mem_of_find?_eq_some hfind
      rw [List.inj_on_of_nodup_map h hother hmem hkey]

namespace Dictionary

variable {α β : Type} {d : Dictionary α} {key : String} {value : α}

/-! ## Order -/

/-- The keys increase strictly. -/
def Ordered (d : Dictionary α) : Prop := d.Pairwise fun a b => compareText a.1 b.1 = .lt

theorem mem_insert {entry : String × α} (h : entry ∈ insert key value d) :
    entry = (key, value) ∨ entry ∈ d := by
  induction d with
  | nil => exact Or.inl (List.mem_singleton.1 h)
  | cons first rest ih =>
    obtain ⟨k, v⟩ := first
    rw [insert] at h
    split at h
    · exact List.mem_cons.1 h
    · exact (List.mem_cons.1 h).imp_right (List.mem_cons_of_mem _)
    · rcases List.mem_cons.1 h with rfl | h
      · exact Or.inr List.mem_cons_self
      · exact (ih h).imp_right (List.mem_cons_of_mem _)

theorem ordered_insert (h : d.Ordered) : (insert key value d).Ordered := by
  induction d with
  | nil => exact List.pairwise_singleton _ _
  | cons first rest ih =>
    obtain ⟨k, v⟩ := first
    obtain ⟨hk, hrest⟩ := List.pairwise_cons.1 h
    rw [insert]
    split
    · rename_i hlt
      refine List.pairwise_cons.2 ⟨fun entry hentry => ?_, h⟩
      rcases List.mem_cons.1 hentry with rfl | hentry
      · exact hlt
      · exact TransCmp.lt_trans hlt (hk entry hentry)
    · rename_i heq
      obtain rfl := compareText_eq_iff.1 heq
      exact List.pairwise_cons.2 ⟨hk, hrest⟩
    · rename_i hgt
      refine List.pairwise_cons.2 ⟨fun entry hentry => ?_, ih hrest⟩
      rcases mem_insert hentry with rfl | hentry
      · exact OrientedCmp.lt_of_gt hgt
      · exact hk entry hentry

theorem ordered_insertAll {entries : List (String × α)} (h : d.Ordered) :
    (insertAll d entries).Ordered := by
  induction entries generalizing d with
  | nil => exact h
  | cons entry rest ih => exact ih (ordered_insert h)

theorem ordered_ofList (entries : List (String × α)) : (ofList entries).Ordered :=
  ordered_insertAll .nil

/-- A key that is not there is the only one that an insertion adds. -/
theorem filter_insert_of_notMem (h : key ∉ d.keys) :
    (insert key value d).filter (·.1 ≠ key) = d := by
  have hkeep : d.filter (·.1 ≠ key) = d := by
    refine List.filter_eq_self.2 fun entry hentry => ?_
    have hne : entry.1 ≠ key := fun heq => h (heq ▸ List.mem_map_of_mem hentry)
    simpa using hne
  induction d with
  | nil => simp [insert]
  | cons first rest ih =>
    obtain ⟨k, v⟩ := first
    have hk : k ≠ key := fun heq => h (heq ▸ List.mem_cons_self)
    have hrest : key ∉ keys rest := fun hmem => h (List.mem_cons_of_mem _ hmem)
    rw [List.filter_cons_of_pos (by simpa using hk)] at hkeep
    have hkeep' := (List.cons.inj hkeep).2
    rw [insert]
    split
    · rw [List.filter_cons_of_neg (by simp), List.filter_cons_of_pos (by simpa using hk), hkeep']
    · rename_i heq
      exact absurd (compareText_eq_iff.1 heq).symm hk
    · rw [List.filter_cons_of_pos (by simpa using hk), ih hrest hkeep']

/-! ## Keys -/

/-- The keys after an insertion do not depend on the values. -/
theorem keys_insert_congr {d' : Dictionary α} (h : d.keys = d'.keys) {value' : α} :
    (insert key value d).keys = (insert key value' d').keys := by
  induction d generalizing d' with
  | nil =>
    obtain rfl : d' = [] := List.map_eq_nil_iff.1 h.symm
    rfl
  | cons first rest ih =>
    obtain ⟨first', rest', rfl, hfirst, hrest⟩ := List.map_eq_cons_iff.1 h.symm
    obtain ⟨k, v⟩ := first
    obtain ⟨k', v'⟩ := first'
    obtain rfl : k' = k := hfirst
    rw [insert, insert]
    split
    · exact congrArg (key :: k' :: ·) hrest.symm
    · exact congrArg (key :: ·) hrest.symm
    · exact congrArg (k' :: ·) (ih hrest.symm)

theorem keys_insertAll_congr {d' : Dictionary α} {entries entries' : List (String × α)}
    (h : d.keys = d'.keys) (hentries : entries.map (·.1) = entries'.map (·.1)) :
    (insertAll d entries).keys = (insertAll d' entries').keys := by
  induction entries generalizing d d' entries' with
  | nil =>
    obtain rfl : entries' = [] := List.map_eq_nil_iff.1 hentries.symm
    exact h
  | cons entry rest ih =>
    obtain ⟨entry', rest', rfl, hkey, hrest⟩ := List.map_eq_cons_iff.1 hentries.symm
    obtain ⟨k, v⟩ := entry
    obtain ⟨k', v'⟩ := entry'
    obtain rfl : k' = k := hkey
    show (insertAll (insert k' v d) rest).keys = (insertAll (insert k' v' d') rest').keys
    exact ih (keys_insert_congr h) hrest.symm

/-! ## Look-up -/

theorem get?_eq_find? (key : String) (d : Dictionary α) :
    d.get? key = (d.find? (·.1 = key)).map (·.2) := by
  induction d with
  | nil => rfl
  | cons first rest ih =>
    obtain ⟨k, v⟩ := first
    rw [get?, List.find?_cons]
    by_cases hk : k = key
    · simp [hk]
    · simp [hk, ih]

/-- The last insertion at a key counts. -/
theorem get?_insertAll_of_last {front back : List (String × α)} (h : key ∉ back.map (·.1)) :
    (insertAll d (front ++ (key, value) :: back)).get? key = some value := by
  have hback : back.reverse.find? (·.1 = key) = none := by
    refine List.find?_eq_none.2 fun entry hentry hkey => h ?_
    exact List.mem_map.2 ⟨entry, List.mem_reverse.1 hentry, of_decide_eq_true hkey⟩
  rw [get?_insertAll, List.reverse_append, List.reverse_cons, List.append_assoc, List.find?_append,
    hback]
  simp

theorem get?_insertAll_of_notMem {entries : List (String × α)} (h : key ∉ entries.map (·.1)) :
    (insertAll d entries).get? key = d.get? key := by
  have hnone : entries.reverse.find? (·.1 = key) = none := by
    refine List.find?_eq_none.2 fun entry hentry hkey => h ?_
    exact List.mem_map.2 ⟨entry, List.mem_reverse.1 hentry, of_decide_eq_true hkey⟩
  rw [get?_insertAll, hnone]
  rfl

theorem get?_eq_none_iff : d.get? key = none ↔ key ∉ d.keys := by
  rw [get?_eq_find?, Option.map_eq_none_iff, List.find?_eq_none, keys, List.mem_map]
  constructor
  · rintro h ⟨entry, hentry, hkey⟩
    exact h entry hentry (by simpa using hkey)
  · intro h entry hentry hkey
    exact h ⟨entry, hentry, by simpa using hkey⟩

/-! ## Entries from left to right -/

variable {entries : List (String × α)}

/-- The last entry of a key is the one that is found. -/
theorem get?_ofList_eq_some_iff : (ofList entries).get? key = some value ↔ ∃ before after,
    entries = before ++ (key, value) :: after ∧ key ∉ after.map (·.1) := by
  constructor
  · intro h
    rw [ofList, get?_insertAll, get?, Option.or_none, Option.map_eq_some_iff] at h
    obtain ⟨⟨k, v⟩, hfind, rfl⟩ := h
    obtain ⟨hk, after, before, hreverse, hafter⟩ := List.find?_eq_some_iff_append.1 hfind
    obtain rfl : k = key := of_decide_eq_true hk
    refine ⟨before.reverse, after.reverse, ?_, ?_⟩
    · rw [← entries.reverse_reverse, hreverse]
      simp
    · intro hmem
      obtain ⟨entry, hentry, hkey⟩ := List.mem_map.1 hmem
      simpa [hkey] using hafter entry (List.mem_reverse.1 hentry)
  · rintro ⟨before, after, rfl, hafter⟩
    exact get?_insertAll_of_last hafter

theorem mem_keys_ofList_iff : key ∈ (ofList entries).keys ↔ key ∈ entries.map (·.1) := by
  rw [← not_iff_not, ← get?_eq_none_iff, ofList, get?_insertAll, get?, Option.or_none,
    Option.map_eq_none_iff, List.find?_eq_none, List.mem_map, not_exists]
  refine forall_congr' fun entry => ?_
  simp

end Dictionary

/-! ## Objects -/

namespace Json

theorem get?_ofDictionary (key : String) (d : Dictionary Json) :
    (ofDictionary d).get? key = d.get? key := (Dictionary.get?_eq_find? key d).symm

theorem get?_ofEntries (key : String) (entries : List (String × Json)) :
    (ofEntries entries).get? key = (entries.reverse.find? (·.1 = key)).map (·.2) := by
  have h := Dictionary.get?_insertAll key [] entries
  rw [show Dictionary.get? key ([] : Dictionary Json) = none from rfl, Option.or_none] at h
  rw [← h]
  exact get?_ofDictionary key _

/-- A member that is written later replaces an earlier one. -/
theorem get?_ofEntries_append (key : String) (entries entries' : List (String × Json)) :
    (ofEntries (entries ++ entries')).get? key =
      ((ofEntries entries').get? key).or ((ofEntries entries).get? key) := by
  rw [get?_ofEntries, get?_ofEntries, get?_ofEntries, List.reverse_append, List.find?_append,
    Option.map_or]

theorem get?_ofEntries_cons (key name : String) (value : Json) (entries : List (String × Json)) :
    (ofEntries ((name, value) :: entries)).get? key =
      ((ofEntries entries).get? key).or (if name = key then some value else none) := by
  rw [← List.singleton_append, get?_ofEntries_append, get?_ofEntries key [(name, value)]]
  by_cases h : name = key <;> simp [h]

theorem get?_ofEntries_of_forall_ne {key : String} {entries : List (String × Json)}
    (h : ∀ entry ∈ entries, entry.1 ≠ key) : (ofEntries entries).get? key = none := by
  rw [get?_ofEntries, List.find?_eq_none.2 fun entry hentry => ?_]
  · rfl
  · simpa using h entry (List.mem_reverse.1 hentry)

end Json

/-- The text of a member. -/
def textAt (key : String) (object : Json) : Option String := (object.get? key).bind Json.asString?

end TaxonomyPress
