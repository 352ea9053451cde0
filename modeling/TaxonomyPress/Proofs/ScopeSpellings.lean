import TaxonomyPress.Proofs.ClosestScope
import TaxonomyPress.Proofs.CompactNames
import TaxonomyPress.Proofs.StoreHistory

/-!
# A scope in every spelling

The scope of an annotation is an IRI, or a literal that holds one, in full or as a prefixed name. The
walks over a taxonomy never read scopes, and what is read of a scope is the identifier that it stands for.

* `Store.replace` : a store with one fact in the place of another;
* `Store.objects_replace_of_ne`, `Store.head?_objects_replace` : values of other predicates stay, and the
  first value comes to the same where the new fact does;
* `Taxonomy.respelled` : a taxonomy with a literal in the place of a scope;
* `Taxonomy.scopeIdentifier_of_spelling` : which literals stand for an IRI;
* `Taxonomy.scopes_in_every_spelling` : such a literal in the place of the IRI changes no text.
-/

namespace TaxonomyPress

/-! ## One fact in the place of another -/

namespace Store

variable {store : Store} {old new : Triple} {s : Term} {p : String}

/-- The store with `new` in the place of `old`. -/
def replace (store : Store) (old new : Triple) : Store :=
  .ofList (store.triples.map fun t => if t = old then new else t)

theorem triples_replace : (store.replace old new).triples =
    distinct (store.triples.map fun t => if t = old then new else t) :=
  triples_ofList _

section

variable (hsubject : new.subject = old.subject) (hpredicate : new.predicate = old.predicate)

include hsubject

theorem subject_ite (t : Triple) : (if t = old then new else t).subject = t.subject := by
  split_ifs with ht
  · rw [hsubject, ht]
  · rfl

/-- No other subject comes or goes. -/
theorem hasSubject_replace : (store.replace old new).hasSubject s = store.hasSubject s := by
  rw [Bool.eq_iff_iff, hasSubject_iff, hasSubject_iff, triples_replace]
  simp only [mem_distinct, List.mem_map, exists_exists_and_eq_and, subject_ite hsubject]

include hpredicate

theorem objects_replace : (store.replace old new).objects s p =
    (distinct ((store.triples.filter fun t => t.subject = s ∧ t.predicate = p).map
      fun t => if t = old then new else t)).map Triple.object := by
  have hkeeps : ∀ t, (if t = old then new else t).predicate = t.predicate := by
    intro t
    split_ifs with ht
    · rw [hpredicate, ht]
    · rfl
  rw [objects_eq_filter, triples_replace, filter_distinct, List.filter_map]
  simp only [Function.comp_def, subject_ite hsubject, hkeeps]

/-- Values of other predicates stay. -/
theorem objects_replace_of_ne (hp : p ≠ old.predicate) :
    (store.replace old new).objects s p = store.objects s p := by
  have hsame : ∀ t ∈ store.triples.filter fun t => t.subject = s ∧ t.predicate = p,
      (if t = old then new else t) = t := by
    intro t ht
    have hpt : t.predicate = p := (of_decide_eq_true (List.mem_filter.1 ht).2).2
    exact if_neg fun heq => hp (hpt.symm.trans (congrArg Triple.predicate heq))
  rw [objects_replace hsubject hpredicate, List.map_congr_left hsame, List.map_id',
    distinct_of_nodup (store.nodup.filter _), objects_eq_filter]

/-- The first value comes to the same, if both values do. The others need not, for the new fact can be
there already. -/
theorem head?_objects_replace {α : Type} {g : Term → α} (hg : g new.object = g old.object) :
    ((store.replace old new).objects s p).head?.map g = (store.objects s p).head?.map g := by
  rw [objects_replace hsubject hpredicate, objects_eq_filter, List.head?_map, head?_distinct,
    List.head?_map, List.head?_map, Option.map_map, Option.map_map, Option.map_map]
  refine Option.map_congr fun t _ => ?_
  show g (if t = old then new else t).object = g t.object
  split_ifs with ht
  · rw [hg, ht]
  · rfl

end

end Store

namespace Taxonomy

variable {T : Taxonomy} {node : Term} {iri : String} {l : Literal}

/-! ## Spellings of a scope -/

/-- The taxonomy with the literal `l` in the place of the IRI `iri` as a scope of `node`. -/
abbrev respelled (T : Taxonomy) (node : Term) (iri : String) (l : Literal) : Taxonomy :=
  T.withStore (T.store.replace ⟨node, Pot.scope, .iri iri⟩ ⟨node, Pot.scope, .literal l⟩)

/-- A literal stands for an IRI that it holds in full, if this does not look like a prefixed name, or by
its compact identifier. -/
theorem scopeIdentifier_of_spelling (hdistinct : T.namespaces.PrefixesDistinct)
    (hcolon : T.namespaces.ColonFree) (hiri : T.InNamespace (.ofClass (.iri iri)))
    (hfront : ∀ front rest, Text.cutAtFirst ':' iri = some (front, rest) →
      T.namespaces.iriFor front = none)
    (hl : l.text = iri ∨ l.text = T.compactId (.ofClass (.iri iri))) :
    T.scopeIdentifier (.literal l) = iri := by
  show T.namespaces.resolveReference l.text = iri
  rcases hl with hl | hl
  · rw [hl, NamespaceTable.resolveReference, NamespaceTable.expand_eq]
    cases hcut : Text.cutAtFirst ':' iri with
    | none => rfl
    | some parts =>
      rw [Option.bind_some, hfront parts.1 parts.2 hcut]
      rfl
  · rw [hl, NamespaceTable.resolveReference, expand_compactId hdistinct hcolon hiri]
    rfl

/-! ## What is read -/

section

variable (hl : T.scopeIdentifier (.literal l) = iri)

theorem objects_respelled {s : Term} {q : String} (hq : q ≠ Pot.scope) :
    (T.respelled node iri l).store.objects s q = T.store.objects s q :=
  Store.objects_replace_of_ne rfl rfl hq

theorem scopes_respelled (p : Node) (selected : Option Node) :
    (T.respelled node iri l).scopes p selected = T.scopes p selected := by
  have hedges : ∀ q ∈ edgePredicates, q ≠ Pot.scope := by decide
  have hobjects : ∀ q ∈ edgePredicates, ∀ s,
      (T.respelled node iri l).store.objects s q = T.store.objects s q :=
    fun q hq s => objects_respelled (hedges q hq)
  have hsubjects : ∀ s, (T.respelled node iri l).store.hasSubject s = T.store.hasSubject s :=
    fun s => Store.hasSubject_replace rfl
  exact scopes_congr hobjects (fun q _ s o _ => hsubjects o) p selected

include hl

theorem annotationOf_respelled (value : Term) :
    (T.respelled node iri l).annotationOf value = T.annotationOf value := by
  have hvalue : T.scopeIdentifier (.literal l) = T.scopeIdentifier (.iri iri) := hl
  have hscope : ((T.respelled node iri l).store.objects value Pot.scope).head?.map T.scopeIdentifier =
      (T.store.objects value Pot.scope).head?.map T.scopeIdentifier :=
    Store.head?_objects_replace (by rfl) (by rfl) hvalue
  have htext : (T.respelled node iri l).store.objects value Rdf.value =
      T.store.objects value Rdf.value := objects_respelled (by decide)
  have hnode : structuredAnnotation (T.respelled node iri l) value = T.structuredAnnotation value := by
    have hreading : (T.respelled node iri l).scopeIdentifier = T.scopeIdentifier := rfl
    refine Option.ext fun a => ?_
    rw [structuredAnnotation_eq_some_iff, structuredAnnotation_eq_some_iff, htext, hreading, hscope]
  cases value with
  | iri i => exact hnode
  | blank label => exact hnode
  | literal l => rfl

theorem applicable_respelled (p : Node) {q : String} (hq : q ≠ Pot.scope) (scopes : List String) :
    (T.respelled node iri l).applicable p q scopes = T.applicable p q scopes := by
  rw [applicable_eq_filterMap, applicable_eq_filterMap, objects_respelled hq]
  refine List.filterMap_congr fun value _ => ?_
  rw [rankedText, annotationOf_respelled hl]
  rfl

end

/-! ## The main result -/

/-- **A scope means the same in every spelling.** Let an IRI lie in a bound namespace and be longer than
it, and let its text before the first colon be no bound prefix. A literal that holds it, in full or as its
compact identifier, changes no text of any property in the place of a scope, whatever class is selected or
none, on every graph and with every table without a colon in a prefix. -/
theorem scopes_in_every_spelling (T : Taxonomy) (bindings : List (String × String))
    (htable : NamespaceTable.empty.bindAll bindings = T.namespaces) (hcolon : T.namespaces.ColonFree)
    {iri : String} (hiri : T.InNamespace (.ofClass (.iri iri)))
    (hfront : ∀ front rest, Text.cutAtFirst ':' iri = some (front, rest) →
      T.namespaces.iriFor front = none)
    (l : Literal) (hl : l.text = iri ∨ l.text = T.compactId (.ofClass (.iri iri))) (node : Term)
    (p : Node) {q : String} (hq : q ∈ annotatingPredicates) (selected : Option Node) :
    (T.respelled node iri l).resolveTexts p q ((T.respelled node iri l).scopes p selected) =
        T.resolveTexts p q (T.scopes p selected) ∧
      (T.respelled node iri l).resolveText p q ((T.respelled node iri l).scopes p selected) =
        T.resolveText p q (T.scopes p selected) := by
  have hdistinct : T.namespaces.PrefixesDistinct := NamespaceTable.prefixesDistinct_of_bindAll htable
  have hsame : T.scopeIdentifier (.literal l) = iri :=
    scopeIdentifier_of_spelling hdistinct hcolon hiri hfront hl
  have hne : ∀ q ∈ annotatingPredicates, q ≠ Pot.scope := by decide
  have happlicable : (T.respelled node iri l).applicable p q (T.scopes p selected) =
      T.applicable p q (T.scopes p selected) := applicable_respelled hsame p (hne q hq) _
  rw [scopes_respelled]
  exact ⟨by rw [resolveTexts, happlicable]; rfl, by rw [resolveText, happlicable]; rfl⟩

/-- The cover of a house is a roof. -/
def houseCovers : Taxonomy where
  store := .ofList
    [⟨.iri "http://x/o#House", Rdf.type, .iri Rdfs.classType⟩,
     ⟨.blank "b", Pot.scope, .iri "http://x/o#House"⟩,
     ⟨.blank "b", Rdf.value, .plain "roof"⟩,
     ⟨.iri "http://x/o#cover", Rdfs.label, .blank "b"⟩,
     ⟨.iri "http://x/o#cover", Rdfs.label, .plain "cover"⟩]
  namespaces := .bindAll .empty [("o", "http://x/o#")]

/-- It stays a roof when the scope is written as a text, in full or short. -/
theorem houseCovers_in_every_spelling :
    houseCovers.namespaces.ColonFree ∧
      houseCovers.InNamespace (.ofClass (.iri "http://x/o#House")) ∧
      houseCovers.compactId (.ofClass (.iri "http://x/o#House")) = "o:House" ∧
      (houseCovers.respelled (.blank "b") "http://x/o#House" { text := "http://x/o#House" }).resolveText
        (.ofProperty (.iri "http://x/o#cover")) Rdfs.label
        ((houseCovers.respelled (.blank "b") "http://x/o#House" { text := "http://x/o#House" }).scopes
          (.ofProperty (.iri "http://x/o#cover")) (some (.ofClass (.iri "http://x/o#House")))) =
        some "roof" ∧
      (houseCovers.respelled (.blank "b") "http://x/o#House" { text := "o:House" }).resolveText
        (.ofProperty (.iri "http://x/o#cover")) Rdfs.label
        ((houseCovers.respelled (.blank "b") "http://x/o#House" { text := "o:House" }).scopes
          (.ofProperty (.iri "http://x/o#cover")) (some (.ofClass (.iri "http://x/o#House")))) =
        some "roof" := by
  let House : Node := .ofClass (.iri "http://x/o#House")
  let cover : Node := .ofProperty (.iri "http://x/o#cover")
  have hcolon : houseCovers.namespaces.ColonFree := by decide
  have hHouse : houseCovers.InNamespace House :=
    ⟨"http://x/o#House", ⟨"o", "http://x/o#", "House"⟩, rfl,
      ⟨by decide, by decide, by decide, by decide⟩, by decide⟩
  have hcompact : houseCovers.compactId House = "o:House" := by decide
  have hfront : ∀ front rest, Text.cutAtFirst ':' "http://x/o#House" = some (front, rest) →
      houseCovers.namespaces.iriFor front = none := by
    intro front rest hcut
    have hscheme : Text.cutAtFirst ':' "http://x/o#House" = some ("http", "//x/o#House") := by
      decide
    obtain ⟨rfl, -⟩ := Prod.mk.inj (Option.some.inj (hscheme.symm.trans hcut))
    decide
  have hroof : houseCovers.resolveText cover Rdfs.label (houseCovers.scopes cover (some House)) =
      some "roof" := by
    have hroot : houseCovers.realParents House = [] := by decide
    rw [scopes, classScopes, ancestors_of_root hroot]
    decide
  have hmain := scopes_in_every_spelling houseCovers [("o", "http://x/o#")] rfl hcolon hHouse hfront
  exact ⟨hcolon, hHouse, hcompact,
    (hmain _ (Or.inl rfl) (.blank "b") cover (by decide) (some House)).2.trans hroof,
    (hmain _ (Or.inr hcompact.symm) (.blank "b") cover (by decide) (some House)).2.trans hroof⟩

end Taxonomy

end TaxonomyPress
