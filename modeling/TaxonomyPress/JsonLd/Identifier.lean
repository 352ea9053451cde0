import TaxonomyPress.Rdf.Terminals

/-!
# Identifiers of linked data in JSON

* `isKeyword`, `hasKeywordForm` : names that the format keeps for itself;
* `Identifier` : a full IRI, a blank node, or text that is neither; `Identifier.ofText` tells;
* `Meaning` : what a name in a document stands for;
* `IriReference.relativeTo`, `resolveReference` : a reference seen from a base. All `.` and `..`
  segments are resolved, those of the base too; where a path has no root, `..` goes beyond its start.
-/

namespace TaxonomyPress

/-! ## References -/

namespace IriReference

/-- The names on the way to a directory, the last one first, after one more step. The way from a root
does not lead above it. -/
def takeStep (rooted : Bool) (way : List (List Char)) (step : List Char) : List (List Char) :=
  if step = ['.'] then way
  else if step = ['.', '.'] then
    match way with
    | [] => if rooted then [] else [step]
    | name :: above => if name = ['.', '.'] then step :: way else above
  else step :: way

/-- The path that `steps` lead to. A path that ends in `.` or `..` names a directory. -/
def pathOf (rooted : Bool) (steps : List (List Char)) : List Char :=
  let way := steps.foldl (takeStep rooted) []
  let names :=
    if steps.getLast?.any fun step => step = ['.'] ∨ step = ['.', '.'] then [] :: way else way
  (if rooted then ['/'] else []) ++ ['/'].intercalate names.reverse

/-- A path from the root without `.` and `..` segments. -/
def plainPath : List Char → List Char
  | '/' :: path => pathOf true (segments '/' path)
  | path => path

/-- The path of the reference `r` seen from a base. -/
def pathFrom (base r : IriReference) : List Char :=
  match r.path, base.path with
  | '/' :: path, _ => pathOf true (segments '/' path)
  | path, '/' :: there => pathOf true ((segments '/' there).dropLast ++ segments '/' path)
  | path, there => pathOf base.authority.isSome ((segments '/' there).dropLast ++ segments '/' path)

/-- The reference `r` seen from `base`. -/
def relativeTo (base r : IriReference) : IriReference :=
  if r.scheme.isSome then r
  else if r.authority.isSome then { r with scheme := base.scheme, path := plainPath r.path }
  else if r.path.isEmpty then
    { base with query := r.query.or base.query, fragment := r.fragment }
  else
    { scheme := base.scheme, authority := base.authority, path := pathFrom base r
      query := r.query, fragment := r.fragment }

end IriReference

namespace JsonLd

/-- Whether `s` is a reference. A first segment with a colon counts as a path. -/
def isReference (s : String) : Bool := (IriReference.ofChars s.toList).hasValidParts

/-- The IRI of a reference seen from a base, if there is a base. -/
def resolveReference (base : Option String) (s : String) : Option String := do
  let b ← base
  guard (isReference s)
  let resolved := (IriReference.ofChars b.toList).relativeTo (IriReference.ofChars s.toList)
  return String.ofList resolved.toChars

/-! ## Keywords -/

def keywords : List String :=
  ["@base", "@container", "@context", "@default", "@direction", "@graph", "@id", "@import",
   "@included", "@index", "@json", "@language", "@list", "@nest", "@none", "@prefix", "@propagate",
   "@protected", "@reverse", "@set", "@type", "@value", "@version", "@vocab"]

def isKeyword (s : String) : Bool := keywords.contains s

/-- Whether `s` looks like a keyword: `@` and letters. -/
def hasKeywordForm (s : String) : Bool :=
  match s.toList with
  | '@' :: c :: cs => (c :: cs).all isAsciiLetter
  | _ => false

/-! ## Identifiers -/

/-- What names a node, a property or a type. Only the first two name anything in the end. -/
inductive Identifier where
  | iri (iri : String)
  | blank (label : String)
  | invalid (text : String)
deriving DecidableEq

/-- Whether `s` stands for itself: a valid IRI with a scheme. -/
def isIri (s : String) : Bool := isAbsoluteIri s.toList

/-- Whether `s` can be the label of a blank node. Colons may stand in it, dots may not. -/
def isBlankLabel (s : String) : Bool :=
  match s.toList with
  | [] => false
  | c :: cs =>
    (isNameStart c || isDecimalDigit c || c == ':') && cs.all fun d => isNameChar d || d == ':'

/-- The label of a blank node that is written with `_:`. -/
def blankLabel? (s : String) : Option String := do
  let label ← Text.dropPrefix "_:" s
  guard (isBlankLabel label)
  return label

namespace Identifier

/-- What `s` names by itself. -/
def ofText (s : String) : Identifier :=
  if isIri s then .iri s
  else
    match blankLabel? s with
    | some label => .blank label
    | none => .invalid s

/-- The identifier as it is written. -/
def text : Identifier → String
  | iri i => i
  | blank label => "_:" ++ label
  | invalid s => s

/-- Whether nothing with this name is kept: text without a colon that names nothing. -/
def isForgotten : Identifier → Bool
  | invalid s => !s.toList.contains ':'
  | _ => false

end Identifier

/-! ## Meanings -/

/-- What a name in a document stands for. -/
inductive Meaning where
  | nothing
  | keyword (name : String)
  | id (identifier : Identifier)
deriving DecidableEq

namespace Meaning

/-- The name of a node with this meaning. A keyword names no node. -/
def nodeName : Meaning → Option Identifier
  | nothing => none
  | keyword name => some (.invalid name)
  | id identifier => some identifier

/-- The identifier that is meant. -/
def identifier? : Meaning → Option Identifier
  | id identifier => some identifier
  | _ => none

/-- The full IRI that is meant. -/
def iri? : Meaning → Option String
  | id (.iri i) => some i
  | _ => none

end Meaning

end JsonLd

end TaxonomyPress
