import TaxonomyPress.JsonLd.Context
import TaxonomyPress.JsonLd.Item

/-!
# Expanding linked data in JSON

* `Position`, `Scope` : where an element stands, and the contexts inside an object;
* `expandScalar`, `expandValueObject`, `expandLanguageMap` : values under a term;
* `expandElement`, `expandDocument` : elements and documents. What stands free of any node is dropped.
-/

namespace TaxonomyPress

namespace JsonLd

/-- What an element comes to. An empty list of items still is a value of a property. -/
inductive Expanded where
  | nothing
  | one (item : Item)
  | many (items : List Item)

namespace Expanded

def items : Expanded → List Item
  | nothing => []
  | one item => [item]
  | many items => items

/-- The items as one list, unless they are one already. -/
def asList : Expanded → Expanded
  | one (.list items) => one (.list items)
  | expanded => one (.list expanded.items)

/-- Every item in a graph of its own. -/
def inGraphs (expanded : Expanded) : Expanded := many (expanded.items.map Item.inGraph)

end Expanded

/-! ## Positions and scopes -/

/-- A value as a list of values. -/
def elements : Json → List Json
  | .array items => items
  | other => [other]

/-- Where an element stands: the context in force, the term or keyword above it, and whether it stands
in a map whose keys say something about it. -/
structure Position where
  context : ActiveContext
  property : Option String
  inMap : Bool := false

namespace Position

/-- Whether an element here belongs to no node. -/
def isFree (position : Position) : Bool :=
  position.property.isNone || position.property = some "@graph"

/-- The definition of the term above. -/
def definition? (position : Position) : Option TermDefinition :=
  position.property.bind position.context.term?

/-- Whether a list of values is one value of the term above. -/
def isListTerm (position : Position) : Bool :=
  position.definition?.any (·.containers.contains .list)

/-- The context `start` with what the term above brings along. -/
def withTermContext (position : Position) (limit : Nat) (start : ActiveContext) : Option ActiveContext :=
  match position.definition?.bind (·.context) with
  | some loc => processContext limit true true start loc
  | none => some start

end Position

/-- The contexts inside an object: the one for types, the one that types bring along, and what the
object is said to be first. -/
structure Scope where
  typeContext : ActiveContext
  context : ActiveContext
  inputType : Option Meaning

namespace Scope

/-- The context that an object starts from. One that does not propagate ends here, except in a value
and in a mere name. -/
def outerContext (position : Position) (members : List (String × Json)) : ActiveContext :=
  let means (name : String) : Bool := members.any fun (key, _) =>
    position.context.expandKey key = .keyword name
  match position.context.previous with
  | some previous =>
    if position.inMap || means "@value" || (members.length = 1 && means "@id") then
      position.context
    else previous
  | none => position.context

/-- The members of an object that give types, by key. -/
def typeMembers (ctx : ActiveContext) (members : List (String × Json)) : List (String × Json) :=
  sortWith (fun a b => compareText a.1 b.1)
    (members.filter fun (key, _) => ctx.expandKey key = .keyword "@type")

/-- The contexts inside an object. The contexts that types bring along are added by type, and end at
the next node. -/
def enter (limit : Nat) (position : Position) (members : List (String × Json)) : Option Scope := do
  let outer ← position.withTermContext limit (outerContext position members)
  guard (members.countP (·.1 = "@context") ≤ 1)
  let typeContext ←
    match Json.lastMember? "@context" members with
    | some loc => processContext limit false true outer loc
    | none => some outer
  let typeMembers := typeMembers typeContext members
  let names := typeMembers.flatMap fun (_, value) =>
    sortWith compareText ((elements value).filterMap Json.asString?)
  let context ← names.foldlM (fun ctx name =>
    match (typeContext.term? name).bind (·.context) with
    | some loc => processContext limit false false ctx loc
    | none => some ctx) typeContext
  let inputType := do
    let (_, value) ← typeMembers.head?
    let name ← (← (elements value).getLast?).asString?
    return context.expandKey name
  return { typeContext, context, inputType }

end Scope

/-! ## Values -/

def isScalar : Json → Bool
  | .string _ => true
  | .number _ => true
  | .boolean _ => true
  | _ => false

/-- The language of a string under a term. -/
def languageOf (ctx : ActiveContext) (definition : Option TermDefinition) : Option String :=
  (definition.bind (·.language)).getD ctx.language

/-- A scalar under the term `property`. -/
def expandScalar (ctx : ActiveContext) (property : String) (value : Json) : Option Item :=
  let definition := ctx.term? property
  match definition.bind (·.coercion), value with
  | some .reference, .string s => some (.reference (ctx.expandIri true false s).nodeName)
  | some .vocabularyName, .string s => some (.reference (ctx.expandIri true true s).nodeName)
  | some .json, _ => none
  | some (.datatype iri), _ => some (.literal value (some iri) none)
  | _, .string _ => some (.literal value none (languageOf ctx definition))
  | _, _ => some (.literal value none none)

/-- What the members of an object with a value say besides it. -/
structure ValueDraft where
  isJson : Bool
  datatype : Option String := none
  language : Option String := none
  hasLanguage : Bool := false
  hasDirection : Bool := false

/-- An object with the value `content`. Only a string has a language or a direction, and no type then.
-/
def expandValueObject (scope : Scope) (content : Json) (members : List (String × Json)) :
    Option Expanded := do
  let step (draft : ValueDraft) (entry : String × Json) : Option ValueDraft :=
    match scope.context.expandKey entry.1, entry.2 with
    | .keyword "@value", _ => some draft
    | .keyword "@type", .string s =>
      match scope.typeContext.expandIri true true s with
      | .keyword "@json" => some { draft with isJson := true }
      | .id (.iri iri) => some { draft with isJson := false, datatype := some iri }
      | _ => none
    | .keyword "@language", .string s =>
      some { draft with language := some s, hasLanguage := true }
    | .keyword "@direction", .string s =>
      if s = "ltr" ∨ s = "rtl" then some { draft with hasDirection := true } else none
    | .keyword "@index", .string _ => some draft
    | _, _ => none
  let draft ← members.foldlM step { isJson := scope.inputType = some (.keyword "@json") }
  if draft.isJson then return .one (.json content)
  match content with
  | .null => return .nothing
  | _ =>
    guard (isScalar content)
    if draft.hasLanguage || draft.hasDirection then
      guard (draft.datatype.isNone && content.asString?.isSome)
    return .one (.literal content draft.datatype draft.language)

/-- The strings of a map by language. -/
def expandLanguageMap (ctx : ActiveContext) (members : List (String × Json)) :
    Option (List Item) := do
  let groups ← members.mapM fun (language, value) =>
    let tag := if ctx.expandKey language = .keyword "@none" then none else some language
    (elements value).mapM fun (item : Json) =>
      match item with
      | .null => some []
      | .string _ => some [Item.literal item none tag]
      | _ => none
  return groups.flatten.flatten

/-! ## Maps -/

/-- An item of a map, with what the key of its entry says about it. `keyProperty` is the property that
the keys are values of, if the map has one. -/
def Item.underKey (ctx : ActiveContext) (containers : List Container) (keyProperty : Option String)
    (key : String) (item : Item) : Option Item :=
  let item := if containers.contains .graph && !item.isGraph then item.inGraph else item
  let meaning := ctx.expandKey key
  if meaning = .keyword "@none" then some item
  else if containers.contains .index then
    match keyProperty with
    | none => some item
    | some name => do
      let property ← (ctx.expandKey name).identifier?
      item.withValue property (← expandScalar ctx name (.string key))
  else if containers.contains .id then
    some (item.withId (ctx.expandIri true false key).nodeName)
  else do
    let type ← meaning.identifier?
    return item.withType type

/-! ## Elements -/

mutual

/-- An element that is nested less than `depth` levels, and whose contexts are nested less than
`limit`. -/
def expandElement (limit : Nat) (depth : Nat) (position : Position) (element : Json) :
    Option Expanded :=
  match depth with
  | 0 => none
  | depth + 1 =>
    match element with
    | .null => some .nothing
    | .array items => do
      let items ← expandAll limit depth position items
      return if position.isListTerm then .one (.list items) else .many items
    | .object members => do
      let scope ← Scope.enter limit position members
      expandObject limit depth position scope members
    | scalar =>
      match position.property with
      | none => some .nothing
      | some property =>
        if position.isFree then some .nothing
        else do
          let ctx ← position.withTermContext limit position.context
          return .one (← expandScalar ctx property scalar)

/-- The items of all elements. -/
def expandAll (limit : Nat) (depth : Nat) (position : Position) (items : List Json) :
    Option (List Item) :=
  match depth with
  | 0 => none
  | depth + 1 => do
    let expanded ← items.mapM (expandElement limit depth position)
    return expanded.flatMap Expanded.items

/-- An object: a list, a set, a value or a node. The last list, set or value counts. -/
def expandObject (limit : Nat) (depth : Nat) (position : Position) (scope : Scope)
    (members : List (String × Json)) : Option Expanded :=
  match depth with
  | 0 => none
  | depth + 1 =>
    let meaning (entry : String × Json) : Meaning := scope.context.expandKey entry.1
    let last (name : String) : Option Json :=
      (members.reverse.find? fun entry => meaning entry = .keyword name).map (·.2)
    let inside : Position := { context := scope.context, property := position.property }
    match (if position.isFree then none else last "@list"), last "@set", last "@value" with
    | some content, _, _ => do
      guard (members.all fun entry =>
        meaning entry = .keyword "@list"
          || (meaning entry = .keyword "@index" && isString entry.2))
      return .one (.list (← expandAll limit depth inside (elements content)))
    | none, some content, _ => do
      guard (members.all fun entry =>
        meaning entry = .keyword "@set" || meaning entry = .keyword "@index")
      expandElement limit depth inside content
    | none, none, some content => expandValueObject scope content members
    | none, none, none => do
      let draft ← expandMembers limit depth scope position.property {} members
      return match draft.toItem? position.isFree with
        | some item => .one item
        | none => .nothing

/-- Reads the members of a node. -/
def expandMembers (limit : Nat) (depth : Nat) (scope : Scope) (property : Option String)
    (draft : Draft) (members : List (String × Json)) : Option Draft :=
  match depth with
  | 0 => none
  | depth + 1 =>
    members.foldlM (fun draft (key, value) =>
      match scope.context.expandKey key with
      | .nothing => some draft
      | .keyword name => expandKeyword limit depth scope property draft name key value
      | .id name =>
        if name.isForgotten then some draft
        else do
          match ← expandTerm limit depth scope.context key value with
          | .nothing => return draft
          | expanded =>
            if (scope.context.term? key).any (·.isReverse) then
              guard (expanded.items.all Item.isNode)
              return { draft with backward := draft.backward.add name expanded.items }
            else return { draft with forward := draft.forward.add name expanded.items }) draft

/-- Reads a member of a node whose key is a keyword or stands for one. Members for values and lists say
nothing about a node. -/
def expandKeyword (limit : Nat) (depth : Nat) (scope : Scope) (property : Option String)
    (draft : Draft) (name key : String) (value : Json) : Option Draft :=
  match depth with
  | 0 => none
  | depth + 1 =>
    let ctx := scope.context
    match name with
    | "@id" => do
      guard draft.id.isNone
      return { draft with id := (ctx.expandIri true false (← value.asString?)).nodeName }
    | "@type" => do
      let types ← (elements value).mapM fun (item : Json) => do
        (scope.typeContext.expandIri true true (← item.asString?)).identifier?
      return { draft with types := draft.types ++ types }
    | "@graph" => do
      guard draft.graph.isNone
      let expanded ← expandElement limit depth { context := ctx, property := some name } value
      return { draft with graph := some (Item.asSet expanded.items) }
    | "@included" => do
      let expanded ← expandElement limit depth { context := ctx, property := some name } value
      guard (expanded.items.all Item.isNode)
      return { draft with
        included := some (Item.asSet (draft.included.getD [] ++ expanded.items)) }
    | "@language" => some { draft with hasTextMembers := true }
    | "@direction" => some { draft with hasTextMembers := true }
    | "@index" => if isString value then some draft else none
    | "@reverse" => do
      guard draft.backward.isEmpty
      expandReverse limit depth ctx draft (← value.asObject?)
    | "@nest" => do
      let inner ← ({ context := ctx, property := some key } : Position).withTermContext limit ctx
      (elements value).foldlM (fun draft item => do
        let members ← item.asObject?
        guard (members.all fun (key, _) => inner.expandKey key ≠ .keyword "@value")
        expandMembers limit depth { scope with context := inner } property draft members) draft
    | "@value" => none
    | _ => some draft

/-- Reads the members of a map of properties whose subjects are its values. A term in the other
direction turns round once more. -/
def expandReverse (limit : Nat) (depth : Nat) (ctx : ActiveContext) (draft : Draft)
    (members : List (String × Json)) : Option Draft :=
  match depth with
  | 0 => none
  | depth + 1 =>
    members.foldlM (fun draft (key, value) =>
      match ctx.expandKey key with
      | .nothing => some draft
      | .keyword _ => none
      | .id name =>
        if name.isForgotten then some draft
        else do
          let expanded ← expandElement limit depth { context := ctx, property := some key } value
          if (ctx.term? key).any (·.isReverse) then
            return { draft with forward := draft.forward.add name expanded.items }
          else
            guard (expanded.items.all Item.isNode)
            return { draft with backward := draft.backward.add name expanded.items }) draft

/-- The values of a term. -/
def expandTerm (limit : Nat) (depth : Nat) (ctx : ActiveContext) (key : String) (value : Json) :
    Option Expanded :=
  match depth with
  | 0 => none
  | depth + 1 => do
    let definition := ctx.term? key
    let containers := ctx.containers key
    let plain := expandElement limit depth { context := ctx, property := some key } value
    let expanded ←
      if definition.any (·.coercion = some .json) then pure (.one (.json value))
      else
        match value with
        | .object members =>
          if containers.contains .language then .many <$> expandLanguageMap ctx members
          else if [Container.index, .type, .id].any containers.contains then
            .many <$> expandMap limit depth ctx key containers (definition.bind (·.index)) members
          else plain
        | _ => plain
    let expanded := if containers.contains .list then expanded.asList else expanded
    return if containers.contains .graph && !containers.contains .id && !containers.contains .index
      then expanded.inGraphs else expanded

/-- The items of a map by index, identifier or type. -/
def expandMap (limit : Nat) (depth : Nat) (ctx : ActiveContext) (property : String)
    (containers : List Container) (keyProperty : Option String) (members : List (String × Json)) :
    Option (List Item) :=
  match depth with
  | 0 => none
  | depth + 1 => do
    let groups ← members.mapM fun (key, value) => do
      let outer :=
        if containers.contains .id || containers.contains .type then ctx.previous.getD ctx
        else ctx
      let inner ←
        match containers.contains .type, (outer.term? key).bind (·.context) with
        | true, some loc => processContext limit false true outer loc
        | _, _ => some outer
      let expanded ← expandElement limit depth
        { context := inner, property := some property, inMap := true } value
      expanded.items.mapM (Item.underKey ctx containers keyProperty key)
    return groups.flatten

end

/-- The items of a document. A document that is only a graph is what the graph holds. -/
def expandDocument (limit : Nat) (document : Json) : Option (List Item) := do
  let expanded ← expandElement limit (8 * limit) { context := {}, property := none } document
  match expanded.items with
  | [.node none [] [] [] (some graph) none] => return graph
  | items => return Item.asSet items

end JsonLd

end TaxonomyPress
