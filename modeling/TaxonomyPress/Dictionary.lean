import TaxonomyPress.Text

/-!
# Dictionaries: text keys in code point order

* `Dictionary α` : entries by strictly increasing key, each key once;
* `Dictionary.insert` : a later value replaces an earlier one of the same key;
* `get?_insert` : what a look-up sees after an insertion;
* `Dictionary.ofList` : inserts from left to right, so the last value of a key stays.
-/

namespace TaxonomyPress

/-- Entries by increasing key. -/
abbrev Dictionary (α : Type) := List (String × α)

namespace Dictionary

variable {α β : Type}

/-- Puts `value` at `key`, in place of a value that is there. -/
def insert (key : String) (value : α) : Dictionary α → Dictionary α
  | [] => [(key, value)]
  | (k, v) :: rest =>
    match compareText key k with
    | .lt => (key, value) :: (k, v) :: rest
    | .eq => (key, value) :: rest
    | .gt => (k, v) :: insert key value rest

/-- The value at `key`. -/
def get? (key : String) : Dictionary α → Option α
  | [] => none
  | (k, v) :: rest => if k = key then some v else get? key rest

theorem get?_insert (key key' : String) (value : α) (d : Dictionary α) :
    get? key' (insert key value d) = if key = key' then some value else get? key' d := by
  induction d with
  | nil => simp [insert, get?]
  | cons entry rest ih =>
    obtain ⟨k, v⟩ := entry
    simp only [insert]
    split
    · simp [get?]
    · rename_i h
      obtain rfl := compareText_eq_iff.1 h
      by_cases hk : key = key' <;> simp [get?, hk]
    · rename_i h
      by_cases hk : k = key'
      · subst hk
        have : key ≠ k := by
          rintro rfl
          rw [compareText_eq_iff.2 rfl] at h
          cases h
        simp [get?, this]
      · simp [get?, hk, ih]

/-- Inserts `entries` from left to right into `d`. -/
def insertAll (d : Dictionary α) (entries : List (String × α)) : Dictionary α :=
  entries.foldl (fun d (key, value) => insert key value d) d

/-- The last value of each key of `entries`. -/
def ofList (entries : List (String × α)) : Dictionary α := insertAll [] entries

/-- The same keys with other values. -/
def mapValues (f : α → β) (d : Dictionary α) : Dictionary β :=
  d.map fun (key, value) => (key, f value)

/-- The keys in order. -/
def keys (d : Dictionary α) : List String := d.map (·.1)

theorem get?_insertAll (key : String) (d : Dictionary α) (entries : List (String × α)) :
    get? key (insertAll d entries) =
      ((entries.reverse.find? (·.1 = key)).map (·.2)).or (get? key d) := by
  induction entries generalizing d with
  | nil => simp [insertAll]
  | cons entry rest ih =>
    obtain ⟨k, v⟩ := entry
    have step : insertAll d ((k, v) :: rest) = insertAll (insert k v d) rest := rfl
    rw [step, ih, get?_insert, List.reverse_cons, List.find?_append]
    cases hrest : rest.reverse.find? (·.1 = key) with
    | some e => simp
    | none => by_cases hk : k = key <;> simp [hk]

end Dictionary

end TaxonomyPress
