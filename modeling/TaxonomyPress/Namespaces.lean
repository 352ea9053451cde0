import TaxonomyPress.Rdf.Names
import TaxonomyPress.Text

/-!
# Namespaces: prefixes for IRIs

* `NamespaceTable` : a list of prefix bindings in the order of first binding;
  `NamespaceTable.bind` replaces in place;
* `longestMatch` : the binding whose IRI is the longest beginning of a given one;
* `compact`, `expand`, `resolveReference` : between IRIs and prefixed names;
* `split` : prefix and local name of an IRI, or `MalformedIdentifier`; outside the bound namespaces
  the cut is behind the last separator and the prefix is read off the namespace itself
  (`inferPrefix`).
-/

namespace TaxonomyPress

/-- An identifier that has no namespace and local name. -/
structure MalformedIdentifier where
  identifier : String
deriving DecidableEq

/-- What a reader of the report sees. -/
def MalformedIdentifier.message (e : MalformedIdentifier) : String :=
  "malformed identifier `" ++ e.identifier ++ "`: no namespace separator"

/-- Cuts an identifier behind its last `#`, or behind its last `/` if it has no `#`. -/
def splitAtSeparator (identifier : String) : Option (String × String) :=
  let cs := identifier.toList
  ((splitAfterLast (· == '#') cs).or (splitAfterLast (· == '/') cs)).map fun (before, after) =>
    (String.ofList before, String.ofList after)

theorem append_of_splitAtSeparator {identifier before after : String}
    (h : splitAtSeparator identifier = some (before, after)) : before ++ after = identifier := by
  simp only [splitAtSeparator, Option.map_eq_some_iff, Prod.exists, Prod.mk.injEq] at h
  obtain ⟨b, a, hcut, rfl, rfl⟩ := h
  apply String.toList_inj.1
  simp only [String.toList_append, String.toList_ofList]
  rcases Option.or_eq_some_iff.1 hcut with h | ⟨-, h⟩
  · exact append_of_splitAfterLast h
  · exact append_of_splitAfterLast h

/-- A prefix for a namespace that has none: the last path segment, without trailing separators and
without one `.jsonld` ending. -/
def inferPrefix (namespaceIri : String) : String :=
  let trimmed := Text.trimEnd (fun c => c == '#' || c == '/') namespaceIri
  let segment := (Text.segments '/' trimmed).getLastD trimmed
  (Text.dropSuffix ".jsonld" segment).getD segment

/-- Prefixes with their IRIs, in the order in which the prefixes were first bound. -/
structure NamespaceTable where
  bindings : List (String × String)
deriving DecidableEq

namespace NamespaceTable

def empty : NamespaceTable := ⟨[]⟩

/-- The bindings after `iri` has been bound to `name`. -/
def rebind (name iri : String) : List (String × String) → List (String × String)
  | [] => [(name, iri)]
  | (n, i) :: rest => if n = name then (n, iri) :: rest else (n, i) :: rebind name iri rest

/-- Binds `name` to `iri`. A bound prefix keeps its place and loses its former IRI. -/
def bind (table : NamespaceTable) (name iri : String) : NamespaceTable :=
  ⟨rebind name iri table.bindings⟩

/-- Binds from left to right. -/
def bindAll (table : NamespaceTable) (bindings : List (String × String)) : NamespaceTable :=
  bindings.foldl (fun table (name, iri) => table.bind name iri) table

/-- The bindings that every taxonomy starts from. -/
def standard : NamespaceTable :=
  empty.bindAll
    [("rdf", Rdf.namespaceIri),
     ("rdfs", Rdfs.namespaceIri),
     ("xml", "http://www.w3.org/XML/1998/namespace"),
     ("xsd", Xsd.namespaceIri),
     ("foaf", "http://xmlns.com/foaf/0.1/"),
     ("skos", "http://www.w3.org/2004/02/skos/core#"),
     ("owl", Owl.namespaceIri),
     ("vs", Vs.namespaceIri),
     ("dli", Dli.namespaceIri),
     ("pot", Pot.namespaceIri)]

/-- The IRI bound to the prefix `name`. -/
def iriFor (table : NamespaceTable) (name : String) : Option String :=
  (table.bindings.find? (·.1 = name)).map (·.2)

/-- A binding that an IRI lies under, and what the IRI adds to it. -/
structure Match where
  name : String
  namespaceIri : String
  localName : String

/-- The match of `iri` with one binding; an empty namespace matches nothing. -/
def matchBinding (iri : String) (binding : String × String) : Option Match :=
  if binding.2 = "" then none
  else (Text.dropPrefix binding.2 iri).map (⟨binding.1, binding.2, ·⟩)

/-- The longer namespace, and the later one of two that are equally long. -/
def Match.closer (best next : Match) : Match :=
  if best.namespaceIri.utf8ByteSize ≤ next.namespaceIri.utf8ByteSize then next else best

/-- The match of `iri` with its longest bound namespace. -/
def longestMatch (table : NamespaceTable) (iri : String) : Option Match :=
  match table.bindings.filterMap (matchBinding iri) with
  | [] => none
  | first :: others => some (others.foldl Match.closer first)

/-- The prefixed name of an IRI in a bound namespace. -/
def compact (table : NamespaceTable) (iri : String) : Option String :=
  (table.longestMatch iri).map fun m => m.name ++ ":" ++ m.localName

/-- The prefixed name if there is one, else the IRI itself. -/
def shorten (table : NamespaceTable) (iri : String) : String := (table.compact iri).getD iri

/-- The IRI of a prefixed name with a bound prefix. -/
def expand (table : NamespaceTable) (name : String) : Option String := do
  let (front, localName) ← Text.cutAtFirst ':' name
  let iri ← table.iriFor front
  return iri ++ localName

/-- Reads a reference as a prefixed name if it is one, else as an IRI. -/
def resolveReference (table : NamespaceTable) (reference : String) : String :=
  (table.expand reference).getD reference

/-- Prefix and local name of an IRI. -/
def split (table : NamespaceTable) (iri : String) : Except MalformedIdentifier (String × String) :=
  match table.longestMatch iri with
  | some m => if m.localName = "" then .error ⟨iri⟩ else .ok (m.name, m.localName)
  | none =>
    match splitAtSeparator iri with
    | some (namespaceIri, localName) =>
      if localName = "" then .error ⟨iri⟩ else .ok (inferPrefix namespaceIri, localName)
    | none => .error ⟨iri⟩

end NamespaceTable

end TaxonomyPress
