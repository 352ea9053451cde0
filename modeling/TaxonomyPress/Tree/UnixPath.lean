import TaxonomyPress.Text

/-!
# Path texts

* `UnixPath` : a path as it is written, with `/` between its components;
* `UnixPath.push` : a component that begins with `/` replaces the path, an empty one leaves a
  trailing `/`;
* `UnixPath.components` : the names of a path, without empty ones and `.`;
* `UnixPath.parent`, `extension` : the path without its last component, and the ending of that one;
* `UnixPath.isSafe` : relative and without `..`.
-/

namespace TaxonomyPress

/-- A path as it is written. -/
structure UnixPath where
  text : String
deriving DecidableEq

namespace UnixPath

/-- The path `component` seen from `path`. -/
def push (path : UnixPath) (component : String) : UnixPath :=
  if Text.startsWith "/" component then ⟨component⟩
  else if path.text = "" ∨ (Text.dropSuffix "/" path.text).isSome then ⟨path.text ++ component⟩
  else ⟨path.text ++ "/" ++ component⟩

/-- The path `other` seen from `path`. -/
def join (path other : UnixPath) : UnixPath := path.push other.text

def isAbsolute (path : UnixPath) : Bool := Text.startsWith "/" path.text

/-- The names that lead along the path. -/
def components (path : UnixPath) : List String :=
  (Text.segments '/' path.text).filter fun name => name ≠ "" && name ≠ "."

/-- Whether the path stays below where it starts. -/
def isSafe (path : UnixPath) : Bool := !path.isAbsolute && !path.components.contains ".."

/-- The text without trailing separators and `.` components; a lone root or a lone first `.` stays. -/
def trimmedBack : List Char → List Char
  | '/' :: c :: cs => trimmedBack (c :: cs)
  | '.' :: '/' :: c :: cs => trimmedBack (c :: cs)
  | cs => cs

/-- The path without its last component; none of a root or of a path without components. -/
def parent (path : UnixPath) : Option UnixPath :=
  match trimmedBack path.text.toList.reverse with
  | [] => none
  | ['/'] => none
  | back => some ⟨String.ofList (trimmedBack (back.dropWhile (· != '/'))).reverse⟩

/-- The last component, unless it is `..` or the path is a root. -/
def fileName (path : UnixPath) : Option String :=
  match path.components.getLast? with
  | some ".." => none
  | name => name

/-- What follows the last dot of the file name, which must not be its first character. -/
def extension (path : UnixPath) : Option String := do
  let name ← path.fileName
  let (before, after) ← splitAfterLast (· == '.') name.toList
  guard (before.length ≠ 1)
  return String.ofList after

end UnixPath

end TaxonomyPress
