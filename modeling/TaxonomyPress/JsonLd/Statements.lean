import TaxonomyPress.Json.Parser
import TaxonomyPress.JsonLd.Expansion
import TaxonomyPress.Rdf.Statement

/-!
# The statements of linked data in JSON

* `Labels`, `Item.relabelled` : new labels for the blank nodes of a document, numbered as they are met;
* `literalOf` : the literal that a value stands for;
* `chain` : the statements of the nodes that make up a list;
* `Item.statements` : the statements of an item and of all that it holds;
* `JsonLd.parse` : the statements of a document, with the names of their graphs. What is named by no
  full IRI is dropped.
-/

namespace TaxonomyPress

namespace JsonLd

/-! ## Labels -/

/-- How many labels are given, and to which written ones. -/
structure Labels where
  count : Nat := 0
  known : List (String × String) := []

/-- A new label. -/
def freshLabel : StateM Labels String := do
  let labels ← get
  set { labels with count := labels.count + 1 }
  return decimalText labels.count

/-- The label for a written one, which keeps the first label that it is given. -/
def labelFor (written : String) : StateM Labels String := do
  let labels ← get
  match labels.known.find? (·.1 = written) with
  | some (_, label) => return label
  | none =>
    let label := decimalText labels.count
    set { count := labels.count + 1, known := (written, label) :: labels.known : Labels }
    return label

/-- An identifier with its new label, if it is a blank node. -/
def Identifier.relabelled : Identifier → StateM Labels Identifier
  | .blank written => .blank <$> labelFor written
  | other => return other

/-- The name of a node, which gets a label if it has no name. -/
def relabelledName : Option Identifier → StateM Labels Identifier
  | none => .blank <$> freshLabel
  | some id => id.relabelled

namespace Item

mutual

/-- An item in which every node has a name. A node comes before its types, these before its graph, then
what it includes, and its edges last. -/
def relabelled : Item → StateM Labels Item
  | json content => return json content
  | literal content datatype language => return literal content datatype language
  | list items => list <$> relabelledItems items
  | node id types forward backward graph included => do
    let id ← relabelledName id
    let types ← types.mapM Identifier.relabelled
    let graph ← relabelledSet graph
    let included ← relabelledSet included
    let forward ← relabelledEdges forward
    let backward ← relabelledEdges backward
    return node (some id) types forward backward graph included

/-- `relabelled` on every item. -/
def relabelledItems : List Item → StateM Labels (List Item)
  | [] => return []
  | item :: items => do
    let item ← relabelled item
    return item :: (← relabelledItems items)

/-- `relabelled` on the items of every property. -/
def relabelledEdges : List (Identifier × List Item) → StateM Labels (List (Identifier × List Item))
  | [] => return []
  | (property, items) :: edges => do
    let items ← relabelledItems items
    return (property, items) :: (← relabelledEdges edges)

/-- `relabelled` on an optional set of items. -/
def relabelledSet : Option (List Item) → StateM Labels (Option (List Item))
  | none => return none
  | some items => some <$> relabelledItems items

end

end Item

/-! ## Literals -/

/-- Doubles in a literal always have an exponent. -/
def doubleLiteralNotation : DecimalNotation :=
  { leastPoint := 1, greatestPoint := 0, mark := "E", plus := "", pointBeforeMark := true }

/-- Whether a number is written as a whole one of 64 bits. -/
def isWhole (text : String) : Bool :=
  let digits := ((Text.dropPrefix "-" text).getD text).toList
  let n := ofDigits 10 digits
  digits.all isDecimalDigit && (n < Nat.pow 2 63 || (n == Nat.pow 2 63 && Text.startsWith "-" text))

/-- A number as a double. -/
def doubleText (text : String) : String :=
  match (Json.measured text).bind Decimal.nearest with
  | some x => doubleLiteralNotation.write x.shortest
  | none => if Text.startsWith "-" text then "-inf" else "inf"

/-- The literal of a scalar; none for one with a language that is no language tag. -/
def literalOf (content : Json) (datatype language : Option String) : Option Literal :=
  match content with
  | .string s =>
    match language with
    | some tag =>
      if LanguageTag.isWellFormed (tag.toList.map Terminal.lowerAscii) then
        some { text := s, language }
      else none
    | none => some { text := s, datatype }
  | .boolean b =>
    some { text := if b then "true" else "false", datatype := datatype.or (some Xsd.boolean) }
  | .number text =>
    if isWhole text && datatype ≠ some Xsd.double then
      some { text, datatype := datatype.or (some Xsd.integer) }
    else some { text := doubleText text, datatype := datatype.or (some Xsd.double) }
  | _ => none

/-! ## Lists -/

/-- The term of an identifier, if it is a full IRI or a blank node. -/
def Identifier.term? : Identifier → Option Term
  | .iri i => some (.iri i)
  | .blank label => some (.blank label)
  | .invalid _ => none

def statementOf (subject : Term) (predicate : String) (object : Term) : Statement :=
  { subject := .term subject, predicate := .term (.iri predicate), object := .term object }

mutual

/-- The term that an item stands for, and the statements of the list that it is. -/
def objectOf : Item → StateM Labels (Option Term × List Statement)
  | .json content =>
    return (some (.literal { text := content.compressed, datatype := some Rdf.json }), [])
  | .literal content datatype language =>
    return ((literalOf content datatype language).map .literal, [])
  | .node id .. => return (id.bind Identifier.term?, [])
  | .list [] => return (some (.iri Rdf.nil), [])
  | .list (item :: items) => do
    let node := .blank (← freshLabel)
    let (first, inner) ← objectOf item
    let others ← chain node items
    return (some node, (first.map (statementOf node Rdf.first)).toList ++ inner ++ others)

/-- The statements of a list behind the node `previous`. A member that stands for nothing has a node
all the same, which nothing leads to. -/
def chain (previous : Term) : List Item → StateM Labels (List Statement)
  | [] => return [statementOf previous Rdf.rest (.iri Rdf.nil)]
  | item :: items => do
    let node := .blank (← freshLabel)
    let (first, inner) ← objectOf item
    let others ← chain node items
    return (match first with
      | some first => [statementOf previous Rdf.rest node, statementOf node Rdf.first first]
      | none => []) ++ inner ++ others

end

/-! ## Nodes -/

/-- A fact, if its subject and its object are known and its predicate is a full IRI. -/
def factOf (subject : Option Term) (predicate : Identifier) (object : Option Term) :
    List Statement :=
  match subject, predicate, object with
  | some s, .iri p, some o => [statementOf s p o]
  | _, _, _ => []

/-- The fact that `subject` has a value, with the list that the value is. A value that no fact tells of
makes no list. -/
def valueFacts (subject : Option Term) (predicate : Identifier) (item : Item) :
    StateM Labels (List Statement) := do
  match subject, predicate with
  | some _, .iri _ =>
    let (object, inner) ← objectOf item
    return factOf subject predicate object ++ inner
  | _, _ => return []

/-- A statement in the graph that `name` names. One of a graph inside it stays there. -/
def within (name : Option Term) (s : Statement) : Statement :=
  { s with graph := s.graph.or (name.map .term) }

/-- The term of an item that is a node. -/
def Item.nodeTerm? : Item → Option Term
  | .node (some id) .. => id.term?
  | _ => none

namespace Item

mutual

/-- The statements of an item and of all that it holds. Where the graph has no name that counts, nothing
is said in it. -/
def statements (inGraph : Bool) : Item → StateM Labels (List Statement)
  | json _ => return []
  | literal .. => return []
  | list items => listStatements inGraph items
  | node id types forward backward graph included => do
    let term := id.bind Identifier.term?
    let subject := if inGraph then term else none
    let typeFacts := types.flatMap fun type => factOf subject (.iri Rdf.type) type.term?
    let forwardFacts ← forwardStatements inGraph subject forward
    let backwardFacts ← backwardStatements inGraph subject backward
    let includedFacts ← setStatements inGraph included
    let graphFacts ← setStatements term.isSome graph
    return typeFacts ++ forwardFacts ++ backwardFacts ++ includedFacts ++ graphFacts.map (within term)

/-- The statements of all items. -/
def listStatements (inGraph : Bool) : List Item → StateM Labels (List Statement)
  | [] => return []
  | item :: items => do
    let facts ← statements inGraph item
    return facts ++ (← listStatements inGraph items)

/-- The statements of an optional set of items. -/
def setStatements (inGraph : Bool) : Option (List Item) → StateM Labels (List Statement)
  | none => return []
  | some items => listStatements inGraph items

/-- The statements of the values of a property, each fact in front of those inside its value. -/
def valueStatements (inGraph : Bool) (subject : Option Term) (predicate : Identifier) :
    List Item → StateM Labels (List Statement)
  | [] => return []
  | item :: items => do
    let facts ← valueFacts subject predicate item
    let inner ← statements inGraph item
    return facts ++ inner ++ (← valueStatements inGraph subject predicate items)

/-- The statements of the edges that go forward from `subject`. -/
def forwardStatements (inGraph : Bool) (subject : Option Term) :
    List (Identifier × List Item) → StateM Labels (List Statement)
  | [] => return []
  | (predicate, items) :: edges => do
    let facts ← valueStatements inGraph subject predicate items
    return facts ++ (← forwardStatements inGraph subject edges)

/-- The statements of the nodes that a property leads from to `object`. -/
def subjectStatements (inGraph : Bool) (object : Option Term) (predicate : Identifier) :
    List Item → StateM Labels (List Statement)
  | [] => return []
  | item :: items => do
    let inner ← statements inGraph item
    return factOf item.nodeTerm? predicate object ++ inner
      ++ (← subjectStatements inGraph object predicate items)

/-- The statements of the edges that come back to `object`. -/
def backwardStatements (inGraph : Bool) (object : Option Term) :
    List (Identifier × List Item) → StateM Labels (List Statement)
  | [] => return []
  | (predicate, items) :: edges => do
    let facts ← subjectStatements inGraph object predicate items
    return facts ++ (← backwardStatements inGraph object edges)

end

end Item

/-- The statements of expanded items. All nodes have their labels before the nodes of lists do. -/
def statementsOf (items : List Item) : List Statement :=
  let reading : StateM Labels (List Statement) := do
    let named ← Item.relabelledItems items
    Item.listStatements true (Item.asSet (Item.canonicalItems named))
  (reading.run {}).1

/-- The statements of a document. -/
def parse (document : String) : Option (List Statement) := do
  let value ← Json.parse document
  let items ← expandDocument (document.length + 1) value
  return statementsOf items

end JsonLd

end TaxonomyPress
