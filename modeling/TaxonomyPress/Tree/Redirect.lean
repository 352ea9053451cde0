import TaxonomyPress.Tree.FileTree

/-!
# Redirect stubs

A site serves pages, not documents, so each document gets a page that redirects to it.

* `stubText` : the page for a target;
* `FileTree.stubFor` : the stub that an entry of the tree asks for. A document has its stub beside
  it; a document beside a directory of its name, or the index of a directory, has its stub in that
  directory;
* `FileTree.stubs`, `FileTree.writeRedirects` : all stubs of a tree, read off before one is written.
-/

namespace TaxonomyPress

/-- The text of a page that redirects to `target`. -/
def stubText (target : String) : String := "---\nredirect_to: \"" ++ target ++ "\"\n---\n"

/-- Directories whose documents have no page of the directory. -/
def pagelessDirectories : List String := ["Context", "ClassDefinitions", "Ontology"]

/-- A stub by its place below the walked directory, with the place of its target. -/
structure Stub where
  place : Place
  target : Place
deriving DecidableEq

/-- The address of a place on the site. -/
def siteAddress (place : Place) : String := "/" ++ Text.join "/" place

def Stub.text (stub : Stub) : String := stubText (siteAddress stub.target)

namespace FileTree

variable (tree : FileTree)

def isFile (place : Place) : Bool :=
  match tree.entry? place with
  | some (.file _) => true
  | _ => false

def isDirectory (place : Place) : Bool :=
  match tree.entry? place with
  | some .directory => true
  | _ => false

/-- Whether `name` leads from the directory `place` to a directory. The directory itself and the
one above it have names too. -/
def leadsToDirectory (place : Place) (name : String) : Bool :=
  name = "" || name = "." || name = ".." || tree.isDirectory (place ++ [name])

/-- The stub of a directory: to the document of its name beside it, or else to its own index. -/
def directoryStub (root parent : Place) (name : String) : Option Stub :=
  let place := parent ++ [name]
  let sibling := parent ++ [name ++ ".jsonld"]
  let ownIndex := place ++ ["index.jsonld"]
  if name ∈ pagelessDirectories then none
  else if tree.isFile (root ++ sibling) then some ⟨place ++ ["index.md"], sibling⟩
  else if tree.isFile (root ++ ownIndex) then some ⟨place ++ ["index.md"], ownIndex⟩
  else none

/-- The stub of a document: beside it, unless it is an index or has a directory of its name. -/
def documentStub (root parent : Place) (name : String) : Option Stub := do
  let stem ← Text.dropSuffix ".jsonld" name
  guard (stem ≠ "index" && !tree.leadsToDirectory (root ++ parent) stem)
  return ⟨parent ++ [stem ++ ".md"], parent ++ [name]⟩

/-- The stub that an entry below `root` asks for. -/
def stubFor (root : Place) (found : Place × Entry) : Option Stub :=
  match found.1.getLast?, found.2 with
  | none, _ => none
  | some name, .directory => tree.directoryStub root found.1.dropLast name
  | some name, .file _ => tree.documentStub root found.1.dropLast name

/-- The stubs that the entries of a walk below `root` ask for. -/
def stubs (root : Place) (walk : List (Place × Entry)) : List Stub :=
  walk.filterMap (tree.stubFor root)

/-- Writes the stubs of `walk`, which goes through the entries below `root`; the number of stubs. -/
def writeRedirectsAlong (root : UnixPath) (place : Place) (walk : List (Place × Entry)) :
    FileTree × Except FileError Nat :=
  let stubs := tree.stubs place walk
  let (written, outcome) := tree.writeTexts (stubs.map fun stub =>
    (stub.place.foldl UnixPath.push root, stub.text))
  (written, outcome.map fun _ => stubs.length)

/-- Writes the stubs of everything below `root`. A file has nothing below it. -/
def writeRedirects (root : UnixPath) : FileTree × Except FileError Nat :=
  let place := placeOf root
  match if tree.isPassable root then tree.entry? place else none with
  | none => (tree, .error (.cannotWalk root))
  | some (.file _) => (tree, if endsInName root then .ok 0 else .error (.cannotWalk root))
  | some .directory => tree.writeRedirectsAlong root place (tree.below place)

end FileTree

end TaxonomyPress
