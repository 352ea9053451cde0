import TaxonomyPress.Json.Canonical
import TaxonomyPress.Json.Printer
import TaxonomyPress.JsonLd.LocalContext

/-!
# The context in force

* `Coercion`, `TermDefinition`, `ActiveContext` : what is known about terms, and the context in force;
* `ActiveContext.expandIri` : what a term, a compact IRI or a reference stands for;
* `ContextBuilder.createTerm` : the definition of one term, after those that it depends on;
* `processContext` : the context in force after a written one. A context that is only named cannot be
  loaded, which is a failure like any other fault of a context.
-/

namespace TaxonomyPress

namespace JsonLd

/-! ## Definitions -/

/-- What the values of a term are taken for. -/
inductive Coercion where
  /-- A string is a reference. -/
  | reference
  /-- A string is a name in the vocabulary or a reference. -/
  | vocabularyName
  | json
  | none
  | datatype (iri : String)
deriving DecidableEq

namespace Coercion

def ofMeaning? : Meaning → Option Coercion
  | .keyword "@id" => some .reference
  | .keyword "@vocab" => some .vocabularyName
  | .keyword "@json" => some .json
  | .keyword "@none" => some .none
  | .id (.iri iri) => some (.datatype iri)
  | _ => Option.none

end Coercion

/-- What a context says about a term. -/
structure TermDefinition where
  meaning : Meaning
  isPrefix : Bool := false
  isProtected : Bool := false
  isReverse : Bool := false
  context : Option Json := none
  containers : List Container := []
  language : Option (Option String) := none
  direction : Option (Option String) := none
  index : Option String := none
  nest : Option String := none
  coercion : Option Coercion := none

/-- Whether two definitions say the same but for their protection. -/
def TermDefinition.agrees (a b : TermDefinition) : Bool :=
  a.meaning = b.meaning && a.isPrefix == b.isPrefix && a.isReverse == b.isReverse
    && a.context.map (·.canonical.compressed) == b.context.map (·.canonical.compressed)
    && a.containers = b.containers && a.language == b.language && a.direction == b.direction
    && a.index == b.index && a.nest == b.nest && a.coercion = b.coercion

/-- The base of documents that give none. -/
def documentBase : String := "x-string://"

/-- The context in force. The previous one comes back where this one does not propagate. -/
structure ActiveContext where
  terms : List (String × TermDefinition) := []
  base : Option String := some documentBase
  vocab : Option Identifier := none
  language : Option String := none
  direction : Option String := none
  previous : Option ActiveContext := none

/-- The prefix and the rest of a compact IRI. What follows `_:` is a label, and what begins with `//`
belongs to an IRI. -/
def compactParts (value : String) : Option (String × String) := do
  let (front, back) ← Text.cutAtFirst ':' value
  guard (front ≠ "_" ∧ !Text.startsWith "//" back)
  return (front, back)

namespace ActiveContext

/-- The definition of a term. -/
def term? (ctx : ActiveContext) (name : String) : Option TermDefinition :=
  (ctx.terms.find? (·.1 = name)).map (·.2)

/-- The context with a term that is defined anew. -/
def withTerm (ctx : ActiveContext) (name : String) (definition : TermDefinition) : ActiveContext :=
  { ctx with terms := (name, definition) :: ctx.terms.filter (·.1 ≠ name) }

def withoutTerm (ctx : ActiveContext) (name : String) : ActiveContext :=
  { ctx with terms := ctx.terms.filter (·.1 ≠ name) }

/-- Whether some term must not change. -/
def hasProtectedTerm (ctx : ActiveContext) : Bool := ctx.terms.any (·.2.isProtected)

def containers (ctx : ActiveContext) (name : String) : List Container :=
  match ctx.term? name with
  | some definition => definition.containers
  | none => []

/-- The identifier of a compact IRI whose prefix is known. -/
def compactIri? (ctx : ActiveContext) (value : String) : Option Identifier := do
  let (front, back) ← compactParts value
  let definition ← ctx.term? front
  guard definition.isPrefix
  let start ← definition.meaning.identifier?
  return .ofText (start.text ++ back)

/-- What `value` names without a vocabulary or a base: a blank node, a compact IRI or an IRI. -/
def fullName? (ctx : ActiveContext) (value : String) : Option Identifier :=
  match blankLabel? value with
  | some label => some (.blank label)
  | none =>
    if value = "_:" then some (.invalid value)
    else (ctx.compactIri? value).or (if isIri value then some (.iri value) else none)

/-- What `value` names if it is no term. -/
def expandName (ctx : ActiveContext) (documentRelative vocabRelative : Bool) (value : String) :
    Identifier :=
  match ctx.fullName? value with
  | some identifier => identifier
  | none =>
    match vocabRelative, ctx.vocab with
    | true, some vocab => .ofText (vocab.text ++ value)
    | _, _ =>
      match documentRelative, resolveReference ctx.base value with
      | true, some iri => .iri iri
      | _, _ => .invalid value

/-- What `value` stands for: itself as a keyword, what its term means if that is a keyword or if terms
count, and else what it names. -/
def expandIri (ctx : ActiveContext) (documentRelative vocabRelative : Bool) (value : String) :
    Meaning :=
  if isKeyword value then .keyword value
  else if hasKeywordForm value then .nothing
  else
    let meaning := (ctx.term? value).map (·.meaning)
    match meaning, vocabRelative with
    | some (Meaning.keyword name), _ => .keyword name
    | some meaning, true => meaning
    | _, _ => .id (ctx.expandName documentRelative vocabRelative value)

/-- What a key of an object stands for. -/
def expandKey (ctx : ActiveContext) (key : String) : Meaning := ctx.expandIri false true key

end ActiveContext

/-! ## Creating definitions -/

/-- A context under construction, with the terms that are done and those that are begun. -/
structure BuilderState where
  context : ActiveContext
  defined : List (String × Bool) := []

/-- A step of the construction; a fault of the context ends it. -/
abbrev ContextBuilder (α : Type) := StateT BuilderState Option α

/-- What holds for all terms of one written context. -/
structure Construction where
  source : LocalContext
  overrideProtected : Bool
  /-- Whether a context inside a definition is sound. -/
  isSound : ActiveContext → Json → Bool

namespace ContextBuilder

/-- The state of a term: done, begun or neither. -/
def status (name : String) : ContextBuilder (Option Bool) := do
  return ((← get).defined.find? (·.1 = name)).map (·.2)

def setStatus (name : String) (done : Bool) : ContextBuilder Unit :=
  modify fun s => { s with defined := (name, done) :: s.defined }

/-- Fails unless `condition` holds. -/
def check (condition : Bool) : ContextBuilder Unit := if condition then pure () else failure

/-- What `value` stands for after the terms that it uses, which `create` defines. -/
def expand (create : String → ContextBuilder Unit) (value : String) : ContextBuilder Meaning := do
  unless isKeyword value || hasKeywordForm value do
    create value
    if ((← get).context.term? value).isNone then
      match compactParts value with
      | some (front, _) => unless front = "" do create front
      | none => pure ()
  return (← get).context.expandKey value

/-- Characters at the end of an IRI that can be a prefix. -/
def isGenDelim (c : Char) : Bool := ":/?#[]@".toList.contains c

/-- Whether an identifier can be a prefix without being declared as one. -/
def endsAsPrefix : Meaning → Bool
  | .id (.blank _) => true
  | .id (.iri iri) => iri.toList.getLast?.any isGenDelim
  | _ => false

/-- Whether a term is neither a path nor a compact IRI. -/
def isPlainName (name : String) : Bool := !name.toList.contains ':' && !name.toList.contains '/'

/-- Whether a term reads as an IRI by itself: it has a slash, or colons that neither begin nor end
it. -/
def readsAsIri (name : String) : Bool :=
  let cs := name.toList
  cs.contains '/'
    || (cs.contains ':' && cs.head? != some ':' && cs.getLast? != some ':')

/-- The meaning of a term whose definition gives no other identifier. -/
def ownMeaning (create : String → ContextBuilder Unit) (name : String) :
    ContextBuilder Meaning := do
  match compactParts name with
  | some (front, _) => create front
  | none => pure ()
  let ctx := (← get).context
  let start? : Option (TermDefinition × String) := do
    let (front, back) ← compactParts name
    return (← ctx.term? front, back)
  match start? with
  | some (definition, back) =>
    let iri := (definition.meaning.iri?.getD "") ++ back
    check (isIri iri)
    return .id (.iri iri)
  | none =>
    match blankLabel? name with
    | some label => return .id (.blank label)
    | none =>
      if isIri name then return .id (.iri name)
      else if name.toList.contains '/' && isReference name then do
        let meaning := ctx.expandKey name
        check meaning.iri?.isSome
        return meaning
      else
        match ctx.vocab with
        | some (.iri vocab) => do
          check (isIri (vocab ++ name))
          return .id (.iri (vocab ++ name))
        | _ => failure

/-- The meaning that a definition gives, checked against what the term reads as. -/
def givenMeaning (create : String → ContextBuilder Unit) (name id : String) :
    ContextBuilder Meaning := do
  let meaning ← expand create id
  check (meaning ≠ .keyword "@context")
  match meaning with
  | .id (.invalid _) => failure
  | _ => pure ()
  if readsAsIri name then
    setStatus name true
    check ((← expand create name) = meaning)
  return meaning

/-- What values are coerced to. Keys of a map by type name nodes unless the vocabulary is asked for. -/
def coercionOf (source : TermSource) (given : Option Coercion) :
    ContextBuilder (Option Coercion) := do
  if source.containers.contains .type then
    match given with
    | none => return some .reference
    | some coercion =>
      check (coercion = .reference || coercion = .vocabularyName)
      return given
  else return given

/-- The rest of a definition: everything but its meaning. -/
def complete (task : Construction) (name : String) (source : TermSource)
    (given : Option Coercion) (start : TermDefinition) : ContextBuilder TermDefinition := do
  let ctx := (← get).context
  let coercion ← coercionOf source given
  check (source.index.all fun index =>
    source.containers.contains .index && (ctx.expandKey index).iri?.isSome)
  check (source.context.all (task.isSound ctx))
  check (source.asPrefix.all fun asPrefix => isPlainName name &&
    !(asPrefix && (match start.meaning with
      | .keyword _ => true
      | _ => false)))
  return { start with
    coercion
    containers := source.containers
    context := source.context
    index := source.index
    nest := source.nest
    language := if source.type.isSome then none else source.language
    direction := if source.type.isSome then none else source.direction
    isPrefix := source.asPrefix.getD start.isPrefix }

/-- Puts a definition in place. -/
def place (name : String) (definition : TermDefinition) : ContextBuilder Unit := do
  modify fun s => { s with context := s.context.withTerm name definition }
  setStatus name true

/-- Defines a term in the other direction, which nothing protects. -/
def createReverse (create : String → ContextBuilder Unit) (name : String) (source : TermSource)
    (isProtected : Bool) (coercion : Option Coercion) (reverse : String) :
    ContextBuilder Unit := do
  check (source.id.isNone && source.nest.isNone)
  unless hasKeywordForm reverse do
    let meaning ← expand create reverse
    match meaning with
    | .id (.invalid _) => failure
    | .id _ => pure ()
    | _ => failure
    check (!source.hasContainers || source.containers = [.set] || source.containers = [.index])
    place name { meaning, isProtected, isReverse := true, coercion, containers := source.containers }

/-- Defines a term. A protected definition must not change. -/
def createForward (task : Construction) (create : String → ContextBuilder Unit) (name : String)
    (source : TermSource) (isProtected : Bool) (coercion : Option Coercion)
    (previous : Option TermDefinition) : ContextBuilder Unit := do
  let start ←
    match source.id with
    | some none => pure (some { meaning := .nothing, isProtected : TermDefinition })
    | some (some id) =>
      if id = name then do
        pure (some { meaning := ← ownMeaning create name, isProtected })
      else if hasKeywordForm id && !isKeyword id then pure none
      else do
        let meaning ← givenMeaning create name id
        pure (some
          { meaning, isProtected
            isPrefix := source.isSimple && isPlainName name && endsAsPrefix meaning })
    | none => do
      pure (some { meaning := ← ownMeaning create name, isProtected })
  match start with
  | none => return ()
  | some start =>
    let definition ← complete task name source coercion start
    match previous with
    | some old =>
      if old.isProtected && !task.overrideProtected then do
        check (old.agrees definition)
        place name old
      else place name definition
    | none => place name definition

/-- Defines the term `name`. A term that is begun but not done would need itself. Terms that are only
needed by others count as unprotected unless they say otherwise. Every term that needs another one is
begun before it, so `fuel` need not exceed the number of terms by more than two. -/
def createTerm (task : Construction) : Nat → Bool → String → ContextBuilder Unit
  | 0, _, _ => failure
  | fuel + 1, byDefault, name => do
    match ← status name with
    | some true => return ()
    | some false => failure
    | none => pure ()
    check (name ≠ "")
    setStatus name false
    match task.source.term? name with
    | none => setStatus name true
    | some source =>
      unless hasKeywordForm name do
        let previous := (← get).context.term? name
        modify fun s => { s with context := s.context.withoutTerm name }
        let create := createTerm task fuel false
        let isProtected := source.isProtected.getD byDefault
        let coercion ←
          match source.type with
          | none => pure none
          | some t =>
            match Coercion.ofMeaning? (← expand create t) with
            | some coercion => pure (some coercion)
            | none => failure
        match source.reverse with
        | some reverse => createReverse create name source isProtected coercion reverse
        | none => createForward task create name source isProtected coercion previous

end ContextBuilder

/-! ## Processing contexts -/

/-- The base after that of a written context. -/
def withBase (ctx : ActiveContext) : Option (Option String) → Option ActiveContext
  | none => some ctx
  | some none => some { ctx with base := none }
  | some (some s) => do
    let base ← if isIri s then some s else resolveReference ctx.base s
    return { ctx with base := some base }

/-- The vocabulary after that of a written context. -/
def withVocab (ctx : ActiveContext) : Option (Option String) → Option ActiveContext
  | none => some ctx
  | some none => some { ctx with vocab := none }
  | some (some s) => do
    let vocab ← (ctx.expandIri true true s).identifier?
    return { ctx with vocab := some vocab }

/-- The context after one written context. -/
def addContext (isSound : ActiveContext → Json → Bool) (overrideProtected : Bool)
    (ctx : ActiveContext) (source : LocalContext) : Option ActiveContext := do
  let ctx ← withBase ctx source.base
  let ctx ← withVocab ctx source.vocab
  let ctx := { ctx with
    language := source.language.getD ctx.language
    direction := source.direction.getD ctx.direction }
  let ctx :=
    match source.typeEntry with
    | some isProtected => ctx.withTerm "@type" { meaning := .keyword "@type", isProtected }
    | none => ctx
  let task : Construction := { source, overrideProtected, isSound }
  let fuel := source.terms.length + 2
  let define (entry : String × TermSource) : ContextBuilder Unit :=
    ContextBuilder.createTerm task fuel source.isProtected entry.1
  let (_, built) ← (source.terms.forM define).run { context := ctx }
  return built.context

/-- The context in force after `loc`, which may be a list of contexts, for contexts that are nested
fewer than `depth` levels. -/
def processContext (depth : Nat) (overrideProtected propagate : Bool) (active : ActiveContext)
    (loc : Json) : Option ActiveContext :=
  match depth with
  | 0 => none
  | depth + 1 => do
    guard (isContext loc)
    let propagate :=
      match loc with
      | .object members => (givenFlag members "@propagate").getD propagate
      | _ => propagate
    let start :=
      if propagate || active.previous.isSome then active
      else { active with previous := some active }
    let contexts :=
      match loc with
      | .array items => items
      | other => [other]
    contexts.foldlM (fun ctx item =>
      match item with
      | .null =>
        if !overrideProtected && ctx.hasProtectedTerm then none
        else some { previous := if propagate then none else some ctx }
      | .object members =>
        addContext
          (fun ctx nested => (processContext depth overrideProtected true ctx nested).isSome)
          overrideProtected ctx (LocalContext.ofMembers members)
      | _ => none) start

end JsonLd

end TaxonomyPress
