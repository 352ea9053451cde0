import TaxonomyPress.Taxonomy.Walk

/-!
# Lineages and canonical identifiers

* `firstParents` : the chain of first parents above a node, up to the first repetition;
* `Taxonomy.canonicalId` : the prefix of a node and the titles of its chain, root first;
* `Taxonomy.lineages` : every way from a root to the node as a list of titles, in order;
* `Taxonomy.isNamedIn` : whether a list names a node in any of its three forms.
-/

namespace TaxonomyPress

namespace Taxonomy

variable (T : Taxonomy)

/-! ## The chain of first parents -/

/-- The chain of first parents above `n`. It ends at a root or before the first node that it, or
`n`, already has. -/
def firstParents (n : Node) : List Node := T.parentSteps.firstChain [n.key] n

/-- The titles along the chain, root first and `n` last. -/
def canonicalTitles (n : Node) : Except MalformedIdentifier (List String) := do
  let title ← T.title n
  let above ← (T.firstParents n).mapM T.title
  return above.reverse ++ [title]

/-- `<prefix>:<root>/…/<title>` along the chain of first parents. -/
def canonicalId (n : Node) : Except MalformedIdentifier String := do
  let (front, _) ← T.split n
  let titles ← T.canonicalTitles n
  return front ++ ":" ++ Text.join "/" titles

/-! ## All lineages -/

/-- The title paths that end in `n`. A path leaves a node for a parent only while the key of the
parent is not in `onPath`, which has the keys of the path; a node that no path can leave is a root. -/
def titlePaths (onPath : List NodeKey) (n : Node) :
    Except MalformedIdentifier (List (List String)) := do
  let title ← T.title n
  let above ← ((T.realParents n).filter fun p => p.key ∉ onPath).attach.mapM fun ⟨p, _h⟩ =>
    titlePaths (p.key :: onPath) p
  match above.flatten with
  | [] => return [[title]]
  | paths => return paths.map (· ++ [title])
termination_by remaining T.parentSteps.keys onPath
decreasing_by
  obtain ⟨hp, hkey⟩ := List.mem_filter.1 _h
  exact remaining_cons_lt (T.parentSteps.key_mem_keys hp) (of_decide_eq_true hkey)

/-- Every root-to-`n` list of titles, once each, in lexicographic order. -/
def lineages (n : Node) : Except MalformedIdentifier (List (List String)) := do
  let paths ← T.titlePaths [n.key] n
  return sortWith (lexicographic compareText) (distinct paths)

/-! ## Naming -/

/-- Whether `names` holds the identifier, the compact or the canonical identifier of `n`. -/
def isNamedIn (names : List String) (n : Node) : Bool :=
  n.identifier ∈ names || T.compactId n ∈ names ||
    match T.canonicalId n with
    | .ok id => id ∈ names
    | .error _ => false

end Taxonomy

end TaxonomyPress
