import TaxonomyPress.Taxonomy.Walk

/-!
# Annotations and their scopes

A value of an annotating predicate is either a literal, which applies everywhere, or a node with a
scope and a text, which applies where its scope does. A node without scope or text is no annotation.

* `Annotation`, `Taxonomy.annotations` : what the graph says, in its order;
* `Taxonomy.classScopes`, `Taxonomy.scopes` : the scopes that apply, the closest first;
* `scopeRank` : how close a scope is; unscoped text is farther than every scope;
* `Taxonomy.resolveTexts` : by language, the last applicable text;
* `Taxonomy.resolveText` : the closest applicable text, the last one of several.
-/

namespace TaxonomyPress

/-- A text with the identifier of its scope, if it has one. -/
structure Annotation where
  scope : Option String
  text : Literal
deriving DecidableEq

/-- The place of a scope among the applicable ones; `none` if it is not one of them. -/
def scopeRank (scopes : List String) : Option String → Option Nat
  | none => some scopes.length
  | some scope => scopes.idxOf? scope

/-- Of ranked texts, one of the least rank; the last one if there are several. -/
def closest (ranked : List (Nat × String)) : Option (Nat × String) :=
  ranked.foldl (fun best entry =>
    match best with
    | none => some entry
    | some b => if entry.1 ≤ b.1 then some entry else some b) none

namespace Taxonomy

variable (T : Taxonomy)

/-- The identifier that a scope stands for. A literal may hold a prefixed name. -/
def scopeIdentifier : Term → String
  | .literal l => T.namespaces.resolveReference l.text
  | resource => resource.identifier

/-- The annotation that a node describes by its first scope and its first text. -/
def structuredAnnotation (node : Term) : Option Annotation := do
  let scope ← (T.store.objects node Pot.scope).head?
  let text ← (T.store.objects node Rdf.value).findSome? Term.asLiteral
  return ⟨some (T.scopeIdentifier scope), text⟩

/-- The annotation that a value of an annotating predicate stands for. -/
def annotationOf : Term → Option Annotation
  | .literal l => some ⟨none, l⟩
  | node => T.structuredAnnotation node

/-- Another store lets a value stand for the same annotation if it knows the same of its scopes and
texts. -/
theorem annotationOf_congr {T : Taxonomy} {store : Store} {value : Term}
    (hscope : store.objects value Pot.scope = T.store.objects value Pot.scope)
    (htext : store.objects value Rdf.value = T.store.objects value Rdf.value) :
    (T.withStore store).annotationOf value = T.annotationOf value := by
  have hnode : structuredAnnotation (T.withStore store) value = T.structuredAnnotation value := by
    unfold structuredAnnotation
    rw [hscope, htext]
    rfl
  cases value with
  | iri i => exact hnode
  | blank label => exact hnode
  | literal l => rfl

/-- The annotations of a property, in the order of the graph. -/
def annotations (p : Node) (predicate : String) : List Annotation :=
  (T.store.objects p.term predicate).filterMap T.annotationOf

/-- The scopes that apply as seen from the class `c`: the class and its ancestors. -/
def classScopes (c : Node) : List String := (c :: T.ancestors c).map Node.identifier

/-- The scopes that apply to `p` as seen from no class: the domains that `p` declares. -/
def domainScopes (p : Node) : List String :=
  (T.store.objects p.term Rdfs.domain).map Term.identifier

/-- The scopes that apply to `p` as seen from a class, if one is selected. -/
def scopes (p : Node) : Option Node → List String
  | some c => T.classScopes c
  | none => T.domainScopes p

/-- The texts that apply under `scopes` with their ranks, in the order of the graph. -/
def applicable (p : Node) (predicate : String) (scopes : List String) : List (Nat × Literal) :=
  (T.annotations p predicate).filterMap fun a => (scopeRank scopes a.scope).map (·, a.text)

/-- The applicable texts by language. -/
def resolveTexts (p : Node) (predicate : String) (scopes : List String) : Dictionary String :=
  .ofList ((T.applicable p predicate scopes).map fun (_, l) => (l.languageKey, l.text))

/-- The closest applicable text. -/
def resolveText (p : Node) (predicate : String) (scopes : List String) : Option String :=
  (closest ((T.applicable p predicate scopes).map fun (rank, l) => (rank, l.text))).map (·.2)

/-- The attribute key of a property under `scopes`: its context name, or else its title. -/
def contextName (p : Node) (scopes : List String) : Except MalformedIdentifier String :=
  match T.resolveText p Pot.contextName scopes with
  | some name => .ok name
  | none => T.title p

def propertyLabels (p : Node) (scopes : List String) : Dictionary String :=
  T.resolveTexts p Rdfs.label scopes

def propertyComments (p : Node) (scopes : List String) : Dictionary String :=
  T.resolveTexts p Rdfs.comment scopes

end Taxonomy

end TaxonomyPress
