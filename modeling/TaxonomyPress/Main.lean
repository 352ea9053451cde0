import TaxonomyPress.CommandLine.Run

/-!
# The program

* `survey` : what a run can see of the disk;
* `save` : puts the changes of a run on the disk;
* `main` : one call.
-/

namespace TaxonomyPress

/-- The path to a place. -/
def placeText : Place → String
  | "/" :: names => "/" ++ Text.join "/" names
  | names => Text.join "/" names

/-- The disk with the entry at `place`. The text of a file counts only where `withText` says so. -/
def surveyEntry (withText : Bool) (disk : Disk) (place : Place) : IO Disk := do
  let path := (← IO.currentDir) / placeText place
  let found (entry : Entry) : FileTree := ⟨FileTree.put place entry disk.tree.entries⟩
  if place.isOutermost || !(← path.pathExists) then return disk
  if ← path.isDir then return { disk with tree := found .directory }
  if !withText then return { disk with tree := found (.file "") }
  match ← (IO.FS.readFile path).toBaseIO with
  | .ok text => return { disk with tree := found (.file text) }
  | .error _ => return ⟨found (.file ""), place :: disk.unreadable⟩

/-- The disk with the entries that lead to a place. -/
def surveyPlace (withText : Bool) (disk : Disk) (place : Place) : IO Disk :=
  (beginnings place).foldlM (surveyEntry withText) disk

/-- The disk with everything that a path goes through. -/
def surveyPath (withText : Bool) (disk : Disk) (path : UnixPath) : IO Disk :=
  (FileTree.waypoints path).foldlM (surveyPlace withText) disk

/-- The disk with everything below the directory at `place`. -/
partial def surveyBelow (disk : Disk) (place : Place) : IO Disk := do
  let path := (← IO.currentDir) / placeText place
  if !(← path.isDir) then return disk
  (← path.readDir).foldlM (fun disk found => do
    let below := place ++ [found.fileName]
    surveyBelow (← surveyEntry false disk below) below) disk

/-- What a run with these arguments can see. -/
def survey (arguments : Arguments) : IO Disk := do
  let out := arguments.out
  let disk ← surveyBelow (← surveyPath false FileTree.empty out) (FileTree.placeOf out)
  let sources := arguments.input :: arguments.config.toList
  sources.foldlM (surveyPath true) disk

/-- Makes the disk like `after` where that differs from `before`. -/
def save (before after : FileTree) : IO Unit := do
  let working ← IO.currentDir
  for (place, entry) in after.entries do
    if before.entry? place ≠ some entry then
      match entry with
      | .directory => IO.FS.createDirAll (working / placeText place)
      | .file text => IO.FS.writeFile (working / placeText place) text

end TaxonomyPress

open TaxonomyPress in
def main (arguments : List String) : IO UInt32 := do
  let disk ← match Tools.standard.readArguments arguments with
    | .run given => survey given
    | _ => pure FileTree.empty
  let response := respond arguments disk .standard
  save disk.tree response.tree
  for note in response.notes do
    IO.println (toString (← IO.monoMsNow) ++ " " ++ note)
  for line in response.lines do
    IO.println line
  if let some message := response.message then
    IO.eprintln message
  return UInt32.ofNat response.code
