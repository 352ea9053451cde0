import TaxonomyPress.CommandLine.Arguments
import TaxonomyPress.Settings.Document
import TaxonomyPress.Tree.Generate
import TaxonomyPress.Tree.Redirect

/-!
# A run over a file tree

* `Tools` : the readers and the printer that a run relies on; `Tools.standard` : those of this library;
* `Disk` : the files that a run finds, and which of them it cannot read;
* `RunError`, `RunError.message` : why a run fails;
* `loadTaxonomy` : settings and taxonomy of a run, which change no file;
* `summary` : what a run says about its documents; `Arguments.note` : what it notes in its log;
* `Outcome`, `Arguments.run`, `respond` : the files, the lines and the exit code of a call. Log entries
  come before all lines.
-/

namespace TaxonomyPress

/-- What reads the arguments, the settings and the documents of a run, and what prints bodies. -/
structure Tools where
  readArguments : List String → Request
  readSettings : String → Except SettingsError Settings
  readStatements : Format → String → StatementStream
  print : Json → String

def Tools.standard : Tools where
  readArguments := Request.ofArguments
  readSettings := Settings.ofDocument
  readStatements := TaxonomyPress.readStatements
  print := Json.pretty

/-- The files that a run finds. Some of them cannot be read: nobody may, or what they hold is no text.
What the tree has as the text of such a file stands for what it holds. -/
structure Disk where
  tree : FileTree
  unreadable : List Place := []

instance : Coe FileTree Disk := ⟨fun tree => { tree }⟩

/-- The text of the file at a path, if it can be read. -/
def Disk.read? (disk : Disk) (path : UnixPath) : Option String :=
  if FileTree.placeOf path ∈ disk.unreadable then none else disk.tree.read? path

inductive RunError where
  | cannotGuessFormat (path : UnixPath)
  | cannotReadSettings (path : UnixPath)
  | invalidSettings (path : UnixPath)
  | cannotRead (path : UnixPath)
  | cannotLoad (path : UnixPath)
  | cannotChangeFiles (cause : FileError)
  | nothingResolved
deriving DecidableEq

def RunError.message : RunError → String
  | cannotGuessFormat path => "Cannot guess the format of " ++ path.text ++ "; pass --format"
  | cannotReadSettings path => "Failed to read settings: " ++ path.text
  | invalidSettings path => "Invalid settings: " ++ path.text
  | cannotRead path => "Failed to read " ++ path.text
  | cannotLoad path => "Failed to load " ++ path.text
  | cannotChangeFiles cause => cause.message
  | nothingResolved => "No class could be resolved"

/-- The settings of a run. -/
def loadSettings (tools : Tools) (disk : Disk) : Option UnixPath → Except RunError Settings
  | none => .ok {}
  | some path =>
    match disk.read? path with
    | none => .error (.cannotReadSettings path)
    | some document =>
      match tools.readSettings document with
      | .ok settings => .ok settings
      | .error _ => .error (.invalidSettings path)

/-- The format of the input, which its extension gives if no argument does. -/
def Arguments.inputFormat (arguments : Arguments) : Except RunError Format :=
  match arguments.format.or (Format.ofPath arguments.input) with
  | some format => .ok format
  | none => .error (.cannotGuessFormat arguments.input)

/-- The settings and the taxonomy that a run works on. -/
def loadTaxonomy (tools : Tools) (arguments : Arguments) (disk : Disk) :
    Except RunError (Settings × Taxonomy) := do
  let format ← arguments.inputFormat
  let settings ← loadSettings tools disk arguments.config
  match disk.read? arguments.input with
  | none => .error (.cannotRead arguments.input)
  | some document =>
    match loadWith tools.readStatements format document with
    | .error _ => .error (.cannotLoad arguments.input)
    | .ok store => .ok (settings, ⟨store, settings.namespaceTable⟩)

/-- The lines about the documents of a run. -/
def summary (arguments : Arguments) (report : GenerationReport) : List String :=
  ["Taxonomy " ++ arguments.input.text ++ ": " ++ decimalText report.classCount ++ " classes, "
      ++ decimalText report.propertyCount ++ " properties",
   "  Written: " ++ decimalText report.documentsWritten ++ " documents to " ++ arguments.out.text
      ++ " (" ++ decimalText report.vocabularyCount ++ " vocabularies, "
      ++ decimalText report.identityCount ++ " contexts, "
      ++ decimalText report.definitionCount ++ " class definitions, "
      ++ decimalText report.ontologyCount ++ " ontology fragments, "
      ++ decimalText report.indexCount ++ " indexes)"]

/-- The log entry about the documents of a run. -/
def Arguments.note (arguments : Arguments) (report : GenerationReport) : String :=
  "generation finished documents=" ++ decimalText report.documentsWritten
    ++ " failures=" ++ decimalText report.failures.length ++ " out=" ++ arguments.out.text

/-- The line about a class that failed. -/
def failureLine (failure : ClassFailure) : String :=
  "  Failed: " ++ failure.iri ++ ": " ++ failure.cause.message

/-- The files after a run, its log, what it says, and why it fails if it does. -/
structure Outcome where
  tree : FileTree
  notes : List String
  lines : List String
  error : Option RunError

/-- The exit code of a run. -/
def Outcome.code (outcome : Outcome) : Nat := if outcome.error.isSome then 1 else 0

/-- Writes the redirect stubs of a run that asks for them; the line about them. -/
def writeStubs (arguments : Arguments) (tree : FileTree) :
    FileTree × Except FileError (List String) :=
  if arguments.redirects then
    let (written, outcome) := tree.writeRedirects arguments.out
    (written, outcome.map fun count => ["  Written: " ++ decimalText count ++ " redirect stubs"])
  else (tree, .ok [])

/-- Runs over the files of `disk`. Nothing is written before everything is loaded. -/
def Arguments.run (arguments : Arguments) (disk : Disk) (tools : Tools) : Outcome :=
  match loadTaxonomy tools arguments disk with
  | .error e => ⟨disk.tree, [], [], some e⟩
  | .ok (settings, T) =>
    match T.generate settings disk.tree arguments.out tools.print with
    | (tree, .error e) => ⟨tree, [], [], some (.cannotChangeFiles e)⟩
    | (tree, .ok report) =>
      let notes := [arguments.note report]
      match writeStubs arguments tree with
      | (tree, .error e) => ⟨tree, notes, summary arguments report, some (.cannotChangeFiles e)⟩
      | (tree, .ok stubLines) =>
        { tree, notes
          lines := summary arguments report ++ stubLines ++ report.failures.map failureLine
          error :=
            if 0 < report.classCount ∧ report.failures.length = report.classCount then
              some .nothingResolved
            else none }

/-- How a call is to be made. -/
def usage : List String :=
  ["Build taxonomy vocabulary, context and class definition documents",
   "",
   "Usage: [OPTIONS] <INPUT>",
   "",
   "  <INPUT>            Taxonomy source file (.ttl, .nt or .jsonld)",
   "  --format <FORMAT>  turtle, ntriples or jsonld; guessed from the file extension when omitted",
   "  --out <OUT>        Output directory for generated documents, public when omitted",
   "  --config <CONFIG>  Settings file (TOML)",
   "  --redirects        Also write redirect stubs"]

/-- What a call comes to: the files, the log entries and lines on standard output, the message on
standard error and the exit code. -/
structure Response where
  tree : FileTree
  notes : List String
  lines : List String
  message : Option String
  code : Nat

/-- Responds to a call over the files of `disk`. -/
def respond (arguments : List String) (disk : Disk) (tools : Tools := .standard) : Response :=
  match tools.readArguments arguments with
  | .fault => ⟨disk.tree, [], [], some "Error: invalid arguments", 2⟩
  | .help => ⟨disk.tree, [], usage, none, 0⟩
  | .run arguments =>
    let outcome := arguments.run disk tools
    { tree := outcome.tree
      notes := outcome.notes
      lines := outcome.lines
      message := outcome.error.map fun e => "Error: " ++ e.message
      code := outcome.code }

end TaxonomyPress
