import TaxonomyPress.Json
import TaxonomyPress.JsonLd.Identifier

/-!
# Contexts as they are written

* `isContext` : whether a value can be a context, with all contexts inside its terms;
* `Container` : how the values of a term are grouped; `containersOf` reads a group of them;
* `TermSource`, `LocalContext` : what a written context says, read by `LocalContext.ofMembers`. Of
  members with one key the last one counts.
-/

namespace TaxonomyPress

namespace JsonLd

/-! ## Containers -/

/-- A way to group the values of a term. -/
inductive Container where
  | graph
  | id
  | index
  | language
  | list
  | set
  | type
deriving DecidableEq

namespace Container

def ofName? : String → Option Container
  | "@graph" => some .graph
  | "@id" => some .id
  | "@index" => some .index
  | "@language" => some .language
  | "@list" => some .list
  | "@set" => some .set
  | "@type" => some .type
  | _ => none

/-- All containers, in a fixed order. -/
def all : List Container := [.graph, .id, .index, .language, .list, .set, .type]

/-- Whether containers can stand together: at most one besides a set, where a graph goes with an
identifier or an index, and a list goes with nothing. -/
def fit (group : List Container) : Bool :=
  match all.filter fun c => c ≠ .set && group.contains c with
  | [] => true
  | [.list] => !group.contains .set
  | [_] => true
  | [.graph, other] => other = .id || other = .index
  | _ => false

end Container

/-- The containers that a value names, each once and in a fixed order. -/
def containersOf : Json → Option (List Container)
  | .null => some []
  | .string s => do return [← Container.ofName? s]
  | .array items => do
    let group ← items.mapM fun (item : Json) => item.asString?.bind Container.ofName?
    guard (Container.fit group)
    return Container.all.filter group.contains
  | _ => none

/-! ## Shape -/

def isString : Json → Bool
  | .string _ => true
  | _ => false

def isBoolean : Json → Bool
  | .boolean _ => true
  | _ => false

/-- A string or `null`. -/
def isNullableString : Json → Bool
  | .null => true
  | .string _ => true
  | _ => false

/-- A direction of text or `null`. -/
def isDirection : Json → Bool
  | .null => true
  | .string s => s = "ltr" || s = "rtl"
  | _ => false

/-- The entry for types: a set, which may be protected. -/
def isTypeEntry : Json → Bool
  | .object members =>
    members.any (·.1 = "@container") && members.all fun (key, value) =>
      (key = "@protected" && isBoolean value)
        || (key = "@container" && value.asString? == some "@set")
  | _ => false

/-- Whether the value of a member of a context that is no term has the right shape. Nothing can be
imported, since there is nowhere to load it from. -/
def isSetting (key : String) (value : Json) : Bool :=
  match key, value with
  | "@base", .null => true
  | "@base", .string s => isReference s
  | "@vocab", v => isNullableString v
  | "@language", v => isNullableString v
  | "@direction", v => isDirection v
  | "@propagate", v => isBoolean v
  | "@protected", v => isBoolean v
  | "@version", .number text => text = "1.1"
  | "@type", v => isTypeEntry v
  | _, _ => false

/-- The members of a context that are no terms. -/
def settingKeys : List String :=
  ["@base", "@direction", "@import", "@language", "@propagate", "@protected", "@type", "@version",
   "@vocab"]

/-- Whether a member of the definition of a term other than a context has the right shape. -/
def isTermSetting (key : String) (value : Json) : Bool :=
  match key with
  | "@container" => (containersOf value).isSome
  | "@direction" => isDirection value
  | "@id" => isNullableString value
  | "@index" => isString value
  | "@language" => isNullableString value
  | "@nest" => value.asString?.any fun name => name = "@nest" || !isKeyword name
  | "@prefix" => isBoolean value
  | "@protected" => isBoolean value
  | "@reverse" => isString value
  | "@type" => isString value
  | _ => false

mutual

/-- Whether a value can be a context or a list of contexts. -/
def isContext : Json → Bool
  | .null => true
  | .string s => isReference s
  | .object members => areEntries members
  | .array items => areContexts items
  | _ => false

/-- Whether all values can be contexts, none of them a list. -/
def areContexts : List Json → Bool
  | [] => true
  | .null :: items => areContexts items
  | .string s :: items => isReference s && areContexts items
  | .object members :: items => areEntries members && areContexts items
  | _ :: _ => false

/-- Whether members can be those of a context. No term stands twice. -/
def areEntries : List (String × Json) → Bool
  | [] => true
  | (key, value) :: members =>
    (if settingKeys.contains key then isSetting key value
      else isTerm value && members.all (·.1 ≠ key)) && areEntries members

/-- Whether a value can define a term. -/
def isTerm : Json → Bool
  | .null => true
  | .string _ => true
  | .object members => areTermMembers members
  | _ => false

/-- Whether members can be those of the definition of a term. -/
def areTermMembers : List (String × Json) → Bool
  | [] => true
  | (key, value) :: members =>
    (if key = "@context" then isContext value else isTermSetting key value)
      && areTermMembers members

end

/-! ## Reading -/

/-- What a member says that is a string or `null`. -/
def nullableText (members : List (String × Json)) (key : String) : Option (Option String) :=
  (Json.lastMember? key members).map Json.asString?

/-- What a member says that is a string. -/
def givenText (members : List (String × Json)) (key : String) : Option String :=
  (Json.lastMember? key members).bind Json.asString?

/-- What a member says that is a boolean. -/
def givenFlag (members : List (String × Json)) (key : String) : Option Bool :=
  match Json.lastMember? key members with
  | some (.boolean b) => some b
  | _ => none

/-- How a context defines a term. -/
structure TermSource where
  /-- Whether the definition is only an identifier. -/
  isSimple : Bool := false
  id : Option (Option String) := none
  reverse : Option String := none
  type : Option String := none
  containers : List Container := []
  /-- Whether the definition says something about containers. -/
  hasContainers : Bool := false
  context : Option Json := none
  index : Option String := none
  nest : Option String := none
  language : Option (Option String) := none
  direction : Option (Option String) := none
  asPrefix : Option Bool := none
  isProtected : Option Bool := none

/-- The definition that a value writes. -/
def TermSource.ofJson : Json → TermSource
  | .string s => { isSimple := true, id := some (some s) }
  | .object members =>
    let containers := (Json.lastMember? "@container" members).filter fun (value : Json) =>
      match value with
      | .null => false
      | _ => true
    { id := nullableText members "@id"
      reverse := givenText members "@reverse"
      type := givenText members "@type"
      containers := (containers.bind containersOf).getD []
      hasContainers := containers.isSome
      context := Json.lastMember? "@context" members
      index := givenText members "@index"
      nest := givenText members "@nest"
      language := nullableText members "@language"
      direction := nullableText members "@direction"
      asPrefix := givenFlag members "@prefix"
      isProtected := givenFlag members "@protected" }
  | _ => { id := some none }

/-- A context as it is written. -/
structure LocalContext where
  base : Option (Option String)
  vocab : Option (Option String)
  language : Option (Option String)
  direction : Option (Option String)
  isProtected : Bool
  /-- Whether the entry for types is protected, if there is one. -/
  typeEntry : Option Bool
  terms : List (String × TermSource)

namespace LocalContext

/-- The context that members write. -/
def ofMembers (members : List (String × Json)) : LocalContext :=
  let isProtected := (givenFlag members "@protected").getD false
  { base := nullableText members "@base"
    vocab := nullableText members "@vocab"
    language := nullableText members "@language"
    direction := nullableText members "@direction"
    isProtected
    typeEntry := (Json.lastMember? "@type" members).map fun (value : Json) =>
      (value.asObject?.bind fun entry => givenFlag entry "@protected").getD isProtected
    terms := (members.filter fun (key, _) => !settingKeys.contains key).map
      fun (key, value) => (key, TermSource.ofJson value) }

/-- How the context defines a term. -/
def term? (loc : LocalContext) (name : String) : Option TermSource :=
  (loc.terms.find? (·.1 = name)).map (·.2)

end LocalContext

end JsonLd

end TaxonomyPress
