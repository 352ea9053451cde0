import TaxonomyPress.Document.Identity
import TaxonomyPress.Proofs.Dictionaries
import TaxonomyPress.Proofs.Traversal

/-!
# Identity contexts, key by key

* `Taxonomy.Names` : the key by which a class knows one of its properties; `Taxonomy.LastNamed` : the
  last property with a key, which every key of a property has (`Taxonomy.exists_lastNamed`);
* `entryId` : the property that an entry stands for, in the flat and in the nested form;
* `Taxonomy.get?_context_of_lastNamed` : the entry at the key of a property stands for the last one;
* `Taxonomy.get?_context_of_unnamed` : every other key has the entry that all identities start from.
-/

namespace TaxonomyPress

/-! ## Entries -/

/-- A flat mapping is the identifier itself. -/
def AttributeMapping.isFlat : AttributeMapping → Bool
  | .flat _ => true
  | .nested _ => false
  | .nestedReference _ => false

/-- The identifier that an entry of a context carries: a flat one is a string, a nested one has it at
`@id`. -/
def entryId (flat : Bool) (entry : Json) : Option String :=
  if flat then entry.asString? else textAt "@id" entry

theorem entryId_toJson (mapping : AttributeMapping) :
    entryId mapping.isFlat mapping.toJson = some mapping.id := by
  cases mapping <;> rfl

namespace Taxonomy

variable {T : Taxonomy} {settings : Settings} {n p : Node} {key : String}

/-! ## Keys of properties -/

/-- The class `n` knows the property `p` by `key`. -/
def Names (T : Taxonomy) (n : Node) (key : String) (p : Node) : Prop :=
  T.contextName p (T.classScopes n) = .ok key

/-- No property of `n` behind `p` has the same key. -/
def LastNamed (T : Taxonomy) (n : Node) (key : String) (p : Node) : Prop :=
  ∃ before after, T.allProperties n = before ++ p :: after ∧ T.Names n key p ∧
    ∀ q ∈ after, ¬ T.Names n key q

theorem LastNamed.mem (h : T.LastNamed n key p) : p ∈ T.allProperties n := by
  obtain ⟨before, after, hsplit, -, -⟩ := h
  rw [hsplit]
  exact List.mem_append_right before List.mem_cons_self

theorem exists_lastNamed (hp : p ∈ T.allProperties n) (hname : T.Names n key p) :
    ∃ q, T.LastNamed n key q := by
  unfold LastNamed
  generalize T.allProperties n = properties at hp
  induction properties generalizing p with
  | nil => cases hp
  | cons first rest ih =>
    by_cases hrest : ∃ q ∈ rest, T.Names n key q
    · obtain ⟨r, hr, hrname⟩ := hrest
      obtain ⟨q, before, after, rfl, hq, hafter⟩ := ih hrname hr
      exact ⟨q, first :: before, after, rfl, hq, hafter⟩
    · have hlast : ∀ q ∈ rest, ¬ T.Names n key q := fun q hq hqname => hrest ⟨q, hq, hqname⟩
      rcases List.mem_cons.1 hp with rfl | hp
      · exact ⟨p, [], rest, rfl, hname, hlast⟩
      · exact absurd hname (hlast p hp)

/-! ## Identities -/

theorem attributeMapping_eq_ok {flat : Bool} {scopes : List String} {mapping : AttributeMapping}
    (h : T.attributeMapping flat scopes p = .ok (key, mapping)) :
    T.contextName p scopes = .ok key ∧ T.canonicalId p = .ok mapping.id ∧
      mapping.isFlat = flat := by
  unfold attributeMapping at h
  obtain ⟨name, hname, h⟩ := bind_eq_ok_iff.1 h
  obtain ⟨id, hid, h⟩ := bind_eq_ok_iff.1 h
  obtain ⟨rfl, rfl⟩ := Prod.mk.inj (pure_eq_ok_iff.1 h)
  refine ⟨hname, ?_, ?_⟩
  · rw [hid]
    cases flat <;> cases T.hasObjectRange p <;> rfl
  · cases flat <;> cases T.hasObjectRange p <;> rfl

/-- An identity starts from the base entries of its class and has an attribute for each property. -/
theorem identity_eq_ok {identity : Identity} (h : T.identity settings n = .ok identity) :
    (∃ id, T.canonicalId n = .ok id ∧ identity.base = identityContext settings T.namespaces
        (documentUrl settings.baseUrl .vocabulary (canonicalLineage id) ++ "#")) ∧
      (T.allProperties n).mapM
        (T.attributeMapping (settings.flattens T n) (T.classScopes n)) = .ok identity.attributes := by
  unfold Taxonomy.identity at h
  obtain ⟨id, hid, h⟩ := bind_eq_ok_iff.1 h
  obtain ⟨attributes, hattributes, h⟩ := bind_eq_ok_iff.1 h
  obtain rfl : _ = identity := Except.ok.inj h
  exact ⟨⟨id, hid, rfl⟩, hattributes⟩

/-- A key that no property of a list has is not among the keys of its attributes. -/
theorem notMem_keys_of_unnamed {flat : Bool} {properties : List Node}
    {attributes : List (String × AttributeMapping)}
    (h : properties.mapM (T.attributeMapping flat (T.classScopes n)) = .ok attributes)
    (hnone : ∀ p ∈ properties, ¬ T.Names n key p) :
    key ∉ (attributes.map fun (key, mapping) => (key, mapping.toJson)).map (·.1) := by
  intro hkey
  obtain ⟨_, hentry, rfl⟩ := List.mem_map.1 hkey
  obtain ⟨⟨name, mapping⟩, hmem, rfl⟩ := List.mem_map.1 hentry
  obtain ⟨p, hp, hmapping⟩ := exists_mem_of_mem_mapM h hmem
  exact hnone p hp (attributeMapping_eq_ok hmapping).1

/-- The entry at the key of a property is the mapping of the last property with that key. -/
theorem exists_mapping_of_lastNamed {identity : Identity} (h : T.identity settings n = .ok identity)
    (hp : T.LastNamed n key p) : ∃ mapping,
      T.attributeMapping (settings.flattens T n) (T.classScopes n) p = .ok (key, mapping) ∧
        identity.context.get? key = some mapping.toJson := by
  obtain ⟨before, after, hsplit, hname, hafter⟩ := hp
  obtain ⟨-, hattributes⟩ := identity_eq_ok h
  rw [hsplit] at hattributes
  obtain ⟨front, rest, -, hrest, hattributes⟩ := mapM_append_eq_ok_iff.1 hattributes
  obtain ⟨⟨name, mapping⟩, back, hmapping, hback, rfl⟩ :=
    List.forall₂_cons_left_iff.1 (mapM_eq_ok_iff.1 hrest)
  obtain rfl : name = key := Except.ok.inj ((attributeMapping_eq_ok hmapping).1.symm.trans hname)
  refine ⟨mapping, hmapping, ?_⟩
  unfold Identity.context
  rw [hattributes, List.map_append, List.map_cons]
  exact Dictionary.get?_insertAll_of_last (notMem_keys_of_unnamed (mapM_eq_ok_iff.2 hback) hafter)

/-- The entry at the key of a property stands for the last property with that key. -/
theorem get?_context_of_lastNamed {identity : Identity} (h : T.identity settings n = .ok identity)
    (hp : T.LastNamed n key p) : ∃ entry id, identity.context.get? key = some entry ∧
      T.canonicalId p = .ok id ∧ entryId (settings.flattens T n) entry = some id := by
  obtain ⟨mapping, hmapping, hentry⟩ := exists_mapping_of_lastNamed h hp
  obtain ⟨-, hid, hflat⟩ := attributeMapping_eq_ok hmapping
  exact ⟨mapping.toJson, mapping.id, hentry, hid, hflat ▸ entryId_toJson mapping⟩

/-- Every other key has its base entry. -/
theorem get?_context_of_unnamed {identity : Identity} (h : T.identity settings n = .ok identity)
    (hnone : ∀ p ∈ T.allProperties n, ¬ T.Names n key p) :
    identity.context.get? key = identity.base.get? key :=
  Dictionary.get?_insertAll_of_notMem (notMem_keys_of_unnamed (identity_eq_ok h).2 hnone)

end Taxonomy

end TaxonomyPress
