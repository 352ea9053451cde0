import TaxonomyPress.Proofs.ClosestScope
import TaxonomyPress.Proofs.Dictionaries

/-!
# The last text of each language

Where a predicate has one text for each language, closeness does not count: of the texts that apply
the last one in the graph stays.

* `Taxonomy.Says` : a value counts under some scopes, and with which text;
* `Taxonomy.mem_keys_resolveTexts_iff` : a property has the languages of these texts;
* `Taxonomy.get?_resolveTexts_eq_some_iff` : in each it has the last one;
* `Taxonomy.resolveTexts_of_isExtension` : values that do not count change nothing, wherever they
  stand;
* `Taxonomy.last_writer_per_language` : the result for a property, under a class or under its own
  domains.
-/

namespace TaxonomyPress.Taxonomy

variable {T : Taxonomy} {scopes : List String} {p : Node} {predicate language text : String}
  {value : Term} {l : Literal}

/-! ## Texts that apply -/

/-- `value` counts under `scopes` with the text `l`: it is that literal, or it describes it with one
of them. -/
def Says (T : Taxonomy) (scopes : List String) (value : Term) (l : Literal) : Prop :=
  value = .literal l ∨ ∃ scope ∈ scopes, T.Annotates value scope l

theorem says_iff_exists_rank : T.Says scopes value l ↔ ∃ rank, T.Ranks scopes value rank l := by
  constructor
  · rintro (rfl | ⟨scope, hmem, hannotates⟩)
    · exact ⟨_, .anywhere l⟩
    · exact ⟨_, .within hannotates hmem⟩
  · rintro ⟨rank, hrank⟩
    cases hrank with
    | anywhere => exact Or.inl rfl
    | within hannotates hmem => exact Or.inr ⟨_, hmem, hannotates⟩

theorem exists_says_iff : (∃ l, T.Says scopes value l) ↔ T.Applies scopes value := by
  simp only [applies_iff, says_iff_exists_rank]
  exact exists_comm

/-- What a value enters into the texts by language. -/
def languageEntry (T : Taxonomy) (scopes : List String) (value : Term) : Option (String × String) :=
  (T.rankedText scopes value).map fun e => (e.2.languageKey, e.2.text)

theorem languageEntry_eq_some_iff : T.languageEntry scopes value = some (language, text) ↔
    ∃ l, T.Says scopes value l ∧ l.languageKey = language ∧ l.text = text := by
  simp only [languageEntry, Option.map_eq_some_iff, Prod.exists, rankedText_eq_some_iff,
    Prod.mk.injEq, says_iff_exists_rank]
  constructor
  · rintro ⟨rank, l, hrank, hlanguage, htext⟩
    exact ⟨l, ⟨rank, hrank⟩, hlanguage, htext⟩
  · rintro ⟨l, ⟨rank, hrank⟩, hlanguage, htext⟩
    exact ⟨rank, l, hrank, hlanguage, htext⟩

theorem languageEntry_eq_none_iff :
    T.languageEntry scopes value = none ↔ ¬ T.Applies scopes value := by
  rw [← exists_says_iff, Option.eq_none_iff_forall_ne_some, not_exists]
  constructor
  · intro h l hsays
    exact h (l.languageKey, l.text) (languageEntry_eq_some_iff.2 ⟨l, hsays, rfl, rfl⟩)
  · rintro h ⟨language, text⟩ hentry
    obtain ⟨l, hsays, -, -⟩ := languageEntry_eq_some_iff.1 hentry
    exact h l hsays

theorem resolveTexts_eq_ofList : T.resolveTexts p predicate scopes =
    .ofList ((T.store.objects p.term predicate).filterMap (T.languageEntry scopes)) := by
  rw [resolveTexts, applicable_eq_filterMap, List.map_filterMap]
  rfl

/-! ## Languages and their texts -/

/-- A property has a text in the languages of the values that count. -/
theorem mem_keys_resolveTexts_iff : language ∈ (T.resolveTexts p predicate scopes).keys ↔
    ∃ value ∈ T.store.objects p.term predicate, ∃ l, T.Says scopes value l ∧
      l.languageKey = language := by
  rw [resolveTexts_eq_ofList, Dictionary.mem_keys_ofList_iff]
  simp only [List.mem_map, List.mem_filterMap, Prod.exists, languageEntry_eq_some_iff]
  constructor
  · rintro ⟨_, text, ⟨value, hvalue, l, hsays, hlanguage, -⟩, rfl⟩
    exact ⟨value, hvalue, l, hsays, hlanguage⟩
  · rintro ⟨value, hvalue, l, hsays, hlanguage⟩
    exact ⟨language, l.text, ⟨value, hvalue, l, hsays, hlanguage, rfl⟩, rfl⟩

/-- In each language it has the text of the last one. -/
theorem get?_resolveTexts_eq_some_iff :
    (T.resolveTexts p predicate scopes).get? language = some text ↔ ∃ before value after l,
      T.store.objects p.term predicate = before ++ value :: after ∧ T.Says scopes value l ∧
        l.languageKey = language ∧ l.text = text ∧
        ∀ v ∈ after, ∀ l', T.Says scopes v l' → l'.languageKey ≠ language := by
  have hlast : ∀ after : List Term,
      language ∉ (after.filterMap (T.languageEntry scopes)).map (·.1) ↔
        ∀ v ∈ after, ∀ l', T.Says scopes v l' → l'.languageKey ≠ language := by
    intro after
    rw [List.mem_map]
    constructor
    · intro h v hv l' hsays hlanguage
      refine h ⟨(language, l'.text), List.mem_filterMap.2 ⟨v, hv, ?_⟩, rfl⟩
      exact languageEntry_eq_some_iff.2 ⟨l', hsays, hlanguage, rfl⟩
    · rintro h ⟨⟨_, text⟩, hentry, rfl⟩
      obtain ⟨v, hv, hentry⟩ := List.mem_filterMap.1 hentry
      obtain ⟨l', hsays, hlanguage, -⟩ := languageEntry_eq_some_iff.1 hentry
      exact h v hv l' hsays hlanguage
  rw [resolveTexts_eq_ofList, Dictionary.get?_ofList_eq_some_iff]
  constructor
  · rintro ⟨_, _, hsplit, hafter⟩
    obtain ⟨before, value, after, hvalues, hentry, -, rfl⟩ := filterMap_eq_append_cons_iff.1 hsplit
    obtain ⟨l, hsays, hlanguage, htext⟩ := languageEntry_eq_some_iff.1 hentry
    exact ⟨before, value, after, l, hvalues, hsays, hlanguage, htext, (hlast after).1 hafter⟩
  · rintro ⟨before, value, after, l, hvalues, hsays, hlanguage, htext, hafter⟩
    have hentry := languageEntry_eq_some_iff.2 ⟨l, hsays, hlanguage, htext⟩
    exact ⟨_, _, filterMap_eq_append_cons_iff.2
      ⟨before, value, after, hvalues, hentry, rfl, rfl⟩, (hlast after).2 hafter⟩

/-! ## Values that do not count -/

/-- The predicates by which a value counts or not. -/
def scopingPredicates : List String := Pot.scope :: Rdf.value :: edgePredicates

/-- More values of a predicate, or the same ones elsewhere, change nothing if they do not count. -/
theorem resolveTexts_of_isExtension {after : Store} {extra : List Triple}
    (h : T.store.IsExtension after extra) (hp : T.store.hasSubject p.term)
    (hpredicate : predicate ∉ scopingPredicates) (selected : Option Node)
    (hextra : ∀ t ∈ extra, t.subject = p.term ∧ t.predicate = predicate ∧
      ¬ T.Applies (T.scopes p selected) t.object) :
    (T.withStore after).resolveTexts p predicate ((T.withStore after).scopes p selected) =
      T.resolveTexts p predicate (T.scopes p selected) := by
  have hobjects : ∀ q ∈ scopingPredicates, ∀ s, after.objects s q = T.store.objects s q := by
    intro q hq s
    apply h.objects
    rintro t ht - rfl
    exact hpredicate ((hextra t ht).2.1 ▸ hq)
  have hsubject : ∀ s, after.hasSubject s = T.store.hasSubject s := by
    intro s
    apply h.hasSubject
    rintro t ht rfl
    rw [(hextra t ht).1]
    exact hp
  have hscopes : (T.withStore after).scopes p selected = T.scopes p selected := by
    apply scopes_congr
    · intro q hq
      exact hobjects q (List.mem_cons_of_mem _ (List.mem_cons_of_mem _ hq))
    · intro q _ s o _
      exact hsubject o
  have hentry : (T.withStore after).languageEntry (T.scopes p selected) =
      T.languageEntry (T.scopes p selected) := by
    funext value
    unfold languageEntry rankedText
    rw [annotationOf_congr (hobjects _ (by decide) value) (hobjects _ (by decide) value)]
  rw [hscopes, resolveTexts_eq_ofList, resolveTexts_eq_ofList, hentry]
  refine congrArg Dictionary.ofList (h.filterMap_objects fun t ht _ _ => ?_)
  exact languageEntry_eq_none_iff.2 (hextra t ht).2.2

/-! ## The main result -/

/-- **The last writer of a language wins.** Under the scopes of a class, or under its own domains, a
property has a text of a predicate in the languages of the values that count, in each the last one in
the graph, and each language once. Values that do not count have no influence, wherever they stand. -/
theorem last_writer_per_language (T : Taxonomy) (p : Node) (predicate : String)
    (selected : Option Node) :
    (∀ language, language ∈ (T.resolveTexts p predicate (T.scopes p selected)).keys ↔
      ∃ value ∈ T.store.objects p.term predicate, ∃ l, T.Says (T.scopes p selected) value l ∧
        l.languageKey = language) ∧
      (∀ language text,
        (T.resolveTexts p predicate (T.scopes p selected)).get? language = some text ↔
          ∃ before value after l, T.store.objects p.term predicate = before ++ value :: after ∧
            T.Says (T.scopes p selected) value l ∧ l.languageKey = language ∧ l.text = text ∧
            ∀ v ∈ after, ∀ l', T.Says (T.scopes p selected) v l' → l'.languageKey ≠ language) ∧
      (T.resolveTexts p predicate (T.scopes p selected)).Ordered ∧
      ∀ after extra, T.store.IsExtension after extra → T.store.hasSubject p.term →
        predicate ∉ scopingPredicates → (∀ t ∈ extra, t.subject = p.term ∧
          t.predicate = predicate ∧ ¬ T.Applies (T.scopes p selected) t.object) →
        (T.withStore after).resolveTexts p predicate ((T.withStore after).scopes p selected) =
          T.resolveTexts p predicate (T.scopes p selected) := by
  refine ⟨fun _ => mem_keys_resolveTexts_iff, fun _ _ => get?_resolveTexts_eq_some_iff, ?_, ?_⟩
  · rw [resolveTexts_eq_ofList]
    exact Dictionary.ordered_ofList _
  · intro after extra h hp hpredicate hextra
    exact resolveTexts_of_isExtension h hp hpredicate selected hextra

/-- Covers have labels in two languages, one of them for houses only. What they are called on boats is
described, but no label yet. -/
def covers : Taxonomy where
  store := .ofList
    [⟨.iri "http://x/o#House", Rdf.type, .iri Rdfs.classType⟩,
     ⟨.iri "http://x/o#cover", Rdfs.domain, .iri "http://x/o#House"⟩,
     ⟨.iri "http://x/o#cover", Rdfs.label, .literal { text := "roof", language := "en" }⟩,
     ⟨.iri "http://x/o#cover", Rdfs.label, .blank "gable"⟩,
     ⟨.iri "http://x/o#cover", Rdfs.label, .literal { text := "Dach", language := "de" }⟩,
     ⟨.blank "gable", Pot.scope, .iri "http://x/o#House"⟩,
     ⟨.blank "gable", Rdf.value, .literal { text := "gable roof", language := "en" }⟩,
     ⟨.blank "deck", Pot.scope, .iri "http://x/o#Boat"⟩,
     ⟨.blank "deck", Rdf.value, .literal { text := "deck", language := "en" }⟩]
  namespaces := .empty

/-- The same, with the label for boats behind all others. -/
def coversAndDecks : Store :=
  covers.store.insert ⟨.iri "http://x/o#cover", Rdfs.label, .blank "deck"⟩

/-- The label for houses replaces the earlier one of its language, and the label for boats does not. -/
theorem covers_of_houses :
    covers.store.IsExtension coversAndDecks
        [⟨.iri "http://x/o#cover", Rdfs.label, .blank "deck"⟩] ∧
      covers.resolveTexts (.ofProperty (.iri "http://x/o#cover")) Rdfs.label
          (covers.scopes (.ofProperty (.iri "http://x/o#cover"))
            (some (.ofClass (.iri "http://x/o#House")))) =
        [("de", "Dach"), ("en", "gable roof")] ∧
      (covers.withStore coversAndDecks).resolveTexts (.ofProperty (.iri "http://x/o#cover"))
          Rdfs.label ((covers.withStore coversAndDecks).scopes
            (.ofProperty (.iri "http://x/o#cover")) (some (.ofClass (.iri "http://x/o#House")))) =
        [("de", "Dach"), ("en", "gable roof")] := by
  let cover : Node := .ofProperty (.iri "http://x/o#cover")
  let House : Node := .ofClass (.iri "http://x/o#House")
  have hinsertion : covers.store.IsInsertion coversAndDecks
      [⟨.iri "http://x/o#cover", Rdfs.label, .blank "deck"⟩] :=
    ⟨by decide, by decide⟩
  have hscopes : covers.scopes cover (some House) = ["http://x/o#House"] := by
    have hroot : covers.realParents House = [] := by decide
    rw [scopes, classScopes, ancestors_of_root hroot]
    rfl
  have htexts : covers.resolveTexts cover Rdfs.label ["http://x/o#House"] =
      [("de", "Dach"), ("en", "gable roof")] := by
    decide
  have hdeck : ¬ covers.Applies ["http://x/o#House"] (.blank "deck") :=
    languageEntry_eq_none_iff.1 (by decide)
  obtain ⟨-, -, -, hextension⟩ := last_writer_per_language covers cover Rdfs.label (some House)
  have hsame := hextension coversAndDecks _ hinsertion.isExtension (by decide) (by decide)
  rw [hscopes] at hsame
  refine ⟨hinsertion.isExtension, by rw [hscopes, htexts], (hsame fun t ht => ?_).trans htexts⟩
  obtain rfl := List.mem_singleton.1 ht
  exact ⟨rfl, rfl, hdeck⟩

end TaxonomyPress.Taxonomy
