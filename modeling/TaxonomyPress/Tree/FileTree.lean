import TaxonomyPress.Tree.UnixPath

/-!
# File trees

* `FileTree` : the files and directories below a working directory, by the names that lead to them;
* `entry?` : what lies at a place; the working directory and those above it always exist;
* `waypoints`, `isPassable` : the places that a path goes through, and whether all but the last are
  directories; `..` leads back from a directory only;
* `makeDirectories`, `writeText` : the changes that a run makes. Both fail where a file is in the
  way of a directory or a directory in the way of a file;
* `FileTree.below` : the entries under a place, in the order in which they came to be;
* `FileError` : what went wrong and where, with `FileError.message`.
-/

namespace TaxonomyPress

inductive Entry where
  | directory
  | file (text : String)
deriving DecidableEq

/-- The names that lead from the working directory to an entry. Absolute paths lie under the name
`/`, and paths above the working directory begin with `..`; no entry has one of these names. -/
abbrev Place := List String

/-- Whether a place is a directory of which the tree knows no more than that it exists. -/
def Place.isOutermost (place : Place) : Bool := place == ["/"] || place.all (· == "..")

inductive FileError where
  | cannotCreateDirectory (path : UnixPath)
  | cannotWrite (path : UnixPath)
  | cannotWalk (path : UnixPath)
deriving DecidableEq

def FileError.message : FileError → String
  | cannotCreateDirectory path => "Cannot create output directory " ++ path.text
  | cannotWrite path => "Cannot write " ++ path.text
  | cannotWalk path => "Failed to walk " ++ path.text

/-- Entries by place, in the order in which they came to be. -/
structure FileTree where
  entries : List (Place × Entry)
deriving DecidableEq

namespace FileTree

def empty : FileTree := ⟨[]⟩

/-- What lies at `place`. -/
def entry? (tree : FileTree) (place : Place) : Option Entry :=
  if place.isOutermost then some .directory
  else (tree.entries.find? (·.1 = place)).map (·.2)

/-- The entries after `entry` has been put at `place`. -/
def put (place : Place) (entry : Entry) : List (Place × Entry) → List (Place × Entry)
  | [] => [(place, entry)]
  | (p, e) :: rest => if p = place then (p, entry) :: rest else (p, e) :: put place entry rest

/-- Whether a directory can hold an entry with this name. -/
def isName (name : String) : Bool := name.utf8ByteSize ≤ 255 && !name.toList.contains '\x00'

/-- Whether a path can be followed at all. -/
def isShort (path : UnixPath) : Bool := path.text.utf8ByteSize < 4096

/-- Makes `place` a directory, unless a file is in the way. What leads to it is one already. -/
def makeDirectory (tree : FileTree) (place : Place) : Option FileTree :=
  match tree.entry? place with
  | some .directory => some tree
  | some (.file _) => none
  | none =>
    if isName (place.getLastD "") then some ⟨put place .directory tree.entries⟩ else none

/-- Writes a file into a directory that exists. -/
def writeFile (tree : FileTree) (place : Place) (text : String) : Option FileTree :=
  match tree.entry? place, tree.entry? place.dropLast with
  | some .directory, _ => none
  | some (.file _), some .directory => some ⟨put place (.file text) tree.entries⟩
  | none, some .directory =>
    if isName (place.getLastD "") then some ⟨put place (.file text) tree.entries⟩ else none
  | _, _ => none

/-- The names that lead from `place` down to `p`. Names of outermost places lead elsewhere. -/
def namesBelow (place p : Place) : Option Place :=
  match dropPrefix place p with
  | some (name :: names) => if Place.isOutermost [name] then none else some (name :: names)
  | _ => none

theorem namesBelow_eq_some_iff {place p names : Place} :
    namesBelow place p = some names ↔
      place ++ names = p ∧ names ≠ [] ∧ ∀ name ∈ names.head?, Place.isOutermost [name] = false := by
  rw [← dropPrefix_eq_some_iff]
  unfold namesBelow
  rcases dropPrefix place p with _ | _ | ⟨name, rest⟩
  · exact ⟨nofun, nofun⟩
  · refine ⟨nofun, fun ⟨hcut, hne, _⟩ => absurd (Option.some.inj hcut).symm hne⟩
  · dsimp only
    split
    · rename_i houter
      refine ⟨nofun, ?_⟩
      rintro ⟨hcut, -, hhead⟩
      obtain rfl := Option.some.inj hcut
      rw [hhead name rfl] at houter
      cases houter
    · rename_i hhead
      refine ⟨?_, And.left⟩
      intro hcut
      obtain rfl := Option.some.inj hcut
      refine ⟨rfl, List.cons_ne_nil _ _, fun first hfirst => ?_⟩
      obtain rfl := Option.some.inj hfirst
      exact Bool.eq_false_iff.2 hhead

/-- The entries below `place`, by the names that lead to them from there. -/
def below (tree : FileTree) (place : Place) : List (Place × Entry) :=
  tree.entries.filterMap fun entry => (namesBelow place entry.1).map fun names => (names, entry.2)

/-- The files with their texts. -/
def files (tree : FileTree) : List (Place × String) :=
  tree.entries.filterMap fun (p, e) =>
    match e with
    | .file text => some (p, text)
    | .directory => none

/-! ## Paths -/

/-- The place that names lead to from `base`, where `..` leads back. -/
def resolveNames (base : Place) : List String → Place
  | [] => base
  | name :: names =>
    if name ≠ ".." then resolveNames (base ++ [name]) names
    else if base = ["/"] then resolveNames base names
    else if base.isOutermost then resolveNames (base ++ [".."]) names
    else resolveNames base.dropLast names

/-- The place that a path starts from. -/
def startOf (path : UnixPath) : Place := if path.isAbsolute then ["/"] else []

/-- The place of a path in the tree. -/
def placeOf (path : UnixPath) : Place := resolveNames (startOf path) path.components

/-- The places that a path goes through, from its start to the place of the path itself. -/
def waypoints (path : UnixPath) : List Place :=
  (beginnings path.components).map (resolveNames (startOf path))

/-- Whether a path is short enough and goes through directories only, whatever it leads to. -/
def isPassable (tree : FileTree) (path : UnixPath) : Bool :=
  isShort path && (waypoints path).dropLast.all fun place => tree.entry? place == some .directory

/-- Makes a directory of everything that the path goes through. Nothing changes if one of them is a
file. -/
def makeDirectories (tree : FileTree) (path : UnixPath) : Option FileTree :=
  if isShort path then (waypoints path).foldlM makeDirectory tree else none

/-- Whether a path can be that of a file: it does not end like that of a directory. -/
def endsInName (path : UnixPath) : Bool :=
  match (Text.segments '/' path.text).getLast? with
  | some name => name ≠ "" && name ≠ "." && name ≠ ".."
  | none => false

/-- The text of the file at a path. -/
def read? (tree : FileTree) (path : UnixPath) : Option String := do
  guard (endsInName path && tree.isPassable path)
  match tree.entry? (placeOf path) with
  | some (.file text) => some text
  | _ => none

/-- Writes `text` to `path` and makes the directories that lead there. Directories stay even if the
file cannot be written. -/
def writeText (tree : FileTree) (path : UnixPath) (text : String) :
    FileTree × Except FileError Unit :=
  let made : Except FileError FileTree :=
    match path.parent with
    | none => .ok tree
    | some parent =>
      match tree.makeDirectories parent with
      | some tree => .ok tree
      | none => .error (.cannotCreateDirectory parent)
  match made with
  | .error e => (tree, .error e)
  | .ok tree =>
    let isOpen := endsInName path && tree.isPassable path
    match if isOpen then tree.writeFile (placeOf path) text else none with
    | some written => (written, .ok ())
    | none => (tree, .error (.cannotWrite path))

/-- Writes the texts in their order and stops at the first that cannot be written. -/
def writeTexts (tree : FileTree) : List (UnixPath × String) → FileTree × Except FileError Unit
  | [] => (tree, .ok ())
  | (path, text) :: rest =>
    match tree.writeText path text with
    | (tree, .ok ()) => writeTexts tree rest
    | (tree, .error e) => (tree, .error e)

end FileTree

end TaxonomyPress
