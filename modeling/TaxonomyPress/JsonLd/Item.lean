import TaxonomyPress.Distinct
import TaxonomyPress.Json.Canonical
import TaxonomyPress.Json.Printer
import TaxonomyPress.JsonLd.Identifier

/-!
# Expanded items

* `Item` : a value, a list or a node, with all names resolved; `Item.form` writes one so that two
  items have the same form if and only if they say the same;
* `Edges` : the items of a node by property;
* `Draft` : a node while it is read;
* `Item.canonical` : an item with its numbers in their one form.
-/

namespace TaxonomyPress

namespace JsonLd

/-- An expanded element. The edges of a node go forward from it or backward to it. -/
inductive Item where
  | json (content : Json)
  | literal (content : Json) (datatype : Option String) (language : Option String)
  | list (items : List Item)
  | node (id : Option Identifier) (types : List Identifier)
      (forward : List (Identifier × List Item)) (backward : List (Identifier × List Item))
      (graph : Option (List Item)) (included : Option (List Item))

/-- Items by property, in the order in which the properties first occur. -/
abbrev Edges := List (Identifier × List Item)

namespace Edges

/-- The edges with more items of a property. -/
def add (property : Identifier) (items : List Item) : Edges → Edges
  | [] => [(property, items)]
  | (p, old) :: rest =>
    if p = property then (p, old ++ items) :: rest else (p, old) :: add property items rest

/-- The edges with more items in front of those of a property. -/
def addInFront (property : Identifier) (items : List Item) : Edges → Edges
  | [] => [(property, items)]
  | (p, old) :: rest =>
    if p = property then (p, items ++ old) :: rest
    else (p, old) :: addInFront property items rest

end Edges

/-! ## Equality -/

/-- A form of an optional part. -/
def optionalForm : Option String → String
  | some form => "(" ++ form ++ ")"
  | none => "-"

/-- A form of parts whose order has no meaning. -/
def unorderedForm (forms : List String) : String :=
  "[" ++ Text.join "," (sortWith compareText forms) ++ "]"

/-- A form of an identifier. -/
def Identifier.form : Identifier → String
  | .iri i => "i" ++ Json.quote i
  | .blank label => "b" ++ Json.quote label
  | .invalid s => "x" ++ Json.quote s

namespace Item

mutual

/-- A text that tells items apart. The order of types and of the members of lists counts, that of
properties and of their values does not. -/
def form : Item → String
  | json content => "json" ++ content.compressed
  | literal content datatype language =>
    "literal" ++ content.compressed ++ optionalForm (datatype.map Json.quote)
      ++ optionalForm (language.map Json.quote)
  | list items => "list[" ++ Text.join "," (forms items) ++ "]"
  | node id types forward backward graph included =>
    "node" ++ optionalForm (id.map Identifier.form)
      ++ "[" ++ Text.join "," (types.map Identifier.form) ++ "]"
      ++ unorderedForm (edgeForms forward) ++ unorderedForm (edgeForms backward)
      ++ setForm graph ++ setForm included

/-- The forms of all items. -/
def forms : List Item → List String
  | [] => []
  | item :: items => form item :: forms items

/-- The forms of edges, one for each property. -/
def edgeForms : List (Identifier × List Item) → List String
  | [] => []
  | (property, items) :: edges =>
    (property.form ++ unorderedForm (forms items)) :: edgeForms edges

/-- The form of an optional set of items. -/
def setForm : Option (List Item) → String
  | none => "-"
  | some items => unorderedForm (forms items)

end

/-- A set of items, of which none says the same as an earlier one. -/
def asSet (items : List Item) : List Item := distinctBy form items

/-! ## Kinds -/

def isNode : Item → Bool
  | node .. => true
  | _ => false

/-- Whether an item is a node around a graph and nothing else. -/
def isGraph : Item → Bool
  | node _ types forward backward graph included =>
    types.isEmpty && forward.isEmpty && backward.isEmpty && included.isNone && graph.isSome
  | _ => false

/-- A node that is only named. -/
def reference (id : Option Identifier) : Item := node id [] [] [] none none

/-- An item in a graph of its own. -/
def inGraph (item : Item) : Item := node none [] [] [] (some [item]) none

/-- An item that gets a name if it has none. -/
def withId (id : Option Identifier) : Item → Item
  | node none types forward backward graph included =>
    node id types forward backward graph included
  | other => other

/-- An item with a first type. -/
def withType (type : Identifier) : Item → Item
  | node id types forward backward graph included =>
    node id (type :: types) forward backward graph included
  | other => other

/-- A node with a first value of a property. -/
def withValue (item : Item) (property : Identifier) (value : Item) : Option Item :=
  match item with
  | node id types forward backward graph included =>
    some (node id types (Edges.addInFront property [value] forward) backward graph included)
  | _ => none

/-! ## Canonical form -/

mutual

/-- Numbers and JSON in their one form. What stands in a graph or is only included stays as it is. -/
def canonical : Item → Item
  | json content => json content.canonical
  | literal content datatype language => literal content.canonical datatype language
  | list items => list (canonicalItems items)
  | node id types forward backward graph included =>
    node id types (canonicalEdges forward) (canonicalEdges backward) graph included

/-- `canonical` on every item. -/
def canonicalItems : List Item → List Item
  | [] => []
  | item :: items => canonical item :: canonicalItems items

/-- `canonical` on the items of every property. -/
def canonicalEdges : List (Identifier × List Item) → List (Identifier × List Item)
  | [] => []
  | (property, items) :: edges => (property, canonicalItems items) :: canonicalEdges edges

end

end Item

/-! ## Nodes under construction -/

/-- What has been read of a node. -/
structure Draft where
  id : Option Identifier := none
  types : List Identifier := []
  forward : Edges := []
  backward : Edges := []
  graph : Option (List Item) := none
  included : Option (List Item) := none
  /-- Whether it has a language or a direction, which say nothing about a node. -/
  hasTextMembers : Bool := false

namespace Draft

/-- Whether nothing but a name has been read. -/
def isEmpty (draft : Draft) : Bool :=
  draft.types.isEmpty && draft.forward.isEmpty && draft.backward.isEmpty && draft.graph.isNone
    && draft.included.isNone

/-- The node that has been read, if it says something. Where no other node refers to it, a name alone
says nothing. -/
def toItem? (draft : Draft) (isFree : Bool) : Option Item :=
  if draft.isEmpty && (isFree || (draft.hasTextMembers && draft.id.isNone)) then none
  else
    some (.node draft.id draft.types draft.forward draft.backward draft.graph draft.included)

end Draft

end JsonLd

end TaxonomyPress
