/-!
# Indexes of a list

* `placesWhere` : the places of the members of a list that pass a test; what stands there are these
  members (`filterMap_placesWhere`);
* `PlaceIndex` : places filed by key;
* `PlaceIndex.Covers` : the index files just the places of a list, each under the key of its member, and
  still does when both get one more (`PlaceIndex.Covers.file`);
* `shortest` : the first one of the shortest lists (`mem_of_shortest`, `shortest_eq_none_iff`).
-/

namespace TaxonomyPress

/-! ## Places -/

section Places

variable {α : Type} {p : α → Bool} {xs : List α}

/-- The places of the members of `xs` that pass the test `p`, in increasing order. -/
def placesWhere (p : α → Bool) (xs : List α) : List Nat := (xs.zipIdx.filter (p ·.1)).map (·.2)

theorem placesWhere_concat (p : α → Bool) (xs : List α) (x : α) :
    placesWhere p (xs ++ [x]) = placesWhere p xs ++ if p x then [xs.length] else [] := by
  unfold placesWhere
  rw [List.zipIdx_append, List.filter_append, List.map_append]
  cases hx : p x <;> simp [hx]

theorem getElem?_of_mem_placesWhere {i : Nat} (h : i ∈ placesWhere p xs) :
    ∃ x, xs[i]? = some x ∧ p x := by
  obtain ⟨⟨x, i⟩, hentry, rfl⟩ := List.mem_map.1 h
  obtain ⟨hmem, hp⟩ := List.mem_filter.1 hentry
  exact ⟨x, List.mk_mem_zipIdx_iff_getElem?.1 hmem, hp⟩

theorem lt_length_of_mem_placesWhere {i : Nat} (h : i ∈ placesWhere p xs) : i < xs.length := by
  obtain ⟨x, hx, -⟩ := getElem?_of_mem_placesWhere h
  exact (List.getElem?_eq_some_iff.1 hx).1

theorem filterMap_getElem? {entries : List (α × Nat)} (h : ∀ e ∈ entries, xs[e.2]? = some e.1) :
    entries.filterMap (fun e => xs[e.2]?) = entries.map Prod.fst := by
  induction entries with
  | nil => rfl
  | cons e rest ih =>
    rw [List.filterMap_cons, h e List.mem_cons_self, List.map_cons,
      ih fun e he => h e (List.mem_cons_of_mem _ he)]

/-- What stands at the places are the members that pass the test, in their order. -/
theorem filterMap_placesWhere (p : α → Bool) (xs : List α) :
    (placesWhere p xs).filterMap (xs[·]?) = xs.filter p := by
  have hget : ∀ e ∈ xs.zipIdx.filter (p ·.1), xs[e.2]? = some e.1 := fun _ he =>
    List.mem_zipIdx_iff_getElem?.1 (List.mem_filter.1 he).1
  calc (placesWhere p xs).filterMap (xs[·]?)
      = (xs.zipIdx.filter (p ·.1)).filterMap fun e => xs[e.2]? := List.filterMap_map
    _ = (xs.zipIdx.filter (p ·.1)).map Prod.fst := filterMap_getElem? hget
    _ = (xs.zipIdx.map Prod.fst).filter p := List.filter_map.symm
    _ = xs.filter p := by rw [List.zipIdx_map_fst]

end Places

/-! ## Indexes -/

/-- Places filed by key. -/
abbrev PlaceIndex (κ : Type) := List (κ × List Nat)

namespace PlaceIndex

variable {κ : Type} [DecidableEq κ]

/-- The places filed under `key`. -/
def places (key : κ) : PlaceIndex κ → List Nat
  | [] => []
  | (k, filed) :: rest => if k = key then filed else places key rest

/-- Files `place` under `key`, behind the places that are there. -/
def file (key : κ) (place : Nat) : PlaceIndex κ → PlaceIndex κ
  | [] => [(key, [place])]
  | (k, filed) :: rest =>
    if k = key then (k, filed ++ [place]) :: rest else (k, filed) :: file key place rest

theorem places_file (key key' : κ) (place : Nat) (index : PlaceIndex κ) :
    places key' (file key place index) =
      places key' index ++ if key = key' then [place] else [] := by
  induction index with
  | nil => simp [file, places]
  | cons entry rest ih =>
    obtain ⟨k, filed⟩ := entry
    by_cases hk : k = key
    · subst hk
      by_cases hkey : k = key' <;> simp [file, places, hkey]
    · by_cases hkey : k = key'
      · subst hkey
        simp [file, places, hk, Ne.symm hk]
      · simp [file, places, hk, hkey, ih]

/-- The index files the places of `xs`, each under the key of its member, and no others. -/
def Covers {α : Type} (index : PlaceIndex κ) (key : α → κ) (xs : List α) : Prop :=
  ∀ k, index.places k = placesWhere (fun x => key x = k) xs

theorem Covers.nil {α : Type} (key : α → κ) : Covers [] key [] := fun _ => rfl

theorem Covers.file {α : Type} {index : PlaceIndex κ} {key : α → κ} {xs : List α}
    (h : index.Covers key xs) (x : α) :
    (index.file (key x) xs.length).Covers key (xs ++ [x]) := by
  intro k
  rw [places_file, placesWhere_concat, h k]
  simp only [decide_eq_true_eq]

end PlaceIndex

/-! ## Choosing a list -/

section Shortest

variable {α : Type}

/-- The shorter list, and the first one of two that are equally long. -/
def shorter (best next : List α) : List α := if next.length < best.length then next else best

/-- Of `lists`, the first one of the least length. -/
def shortest : List (List α) → Option (List α)
  | [] => none
  | first :: others => some (others.foldl shorter first)

theorem foldl_shorter_mem (first : List α) (others : List (List α)) :
    others.foldl shorter first ∈ first :: others := by
  induction others generalizing first with
  | nil => exact List.mem_singleton_self first
  | cons next rest ih =>
    have hshorter : shorter first next = next ∨ shorter first next = first := by
      unfold shorter
      split
      · exact Or.inl rfl
      · exact Or.inr rfl
    rw [List.foldl_cons]
    rcases List.mem_cons.1 (ih (shorter first next)) with h | h
    · rw [h]
      rcases hshorter with h | h <;> simp [h]
    · exact List.mem_cons_of_mem _ (List.mem_cons_of_mem _ h)

theorem mem_of_shortest {lists : List (List α)} {xs : List α} (h : shortest lists = some xs) :
    xs ∈ lists := by
  cases lists with
  | nil => cases h
  | cons first others =>
    obtain rfl := Option.some.inj h
    exact foldl_shorter_mem first others

theorem shortest_eq_none_iff {lists : List (List α)} : shortest lists = none ↔ lists = [] := by
  cases lists with
  | nil => exact ⟨fun _ => rfl, fun _ => rfl⟩
  | cons first others =>
    constructor
    · intro h
      cases h
    · intro h
      cases h

end Shortest

end TaxonomyPress
