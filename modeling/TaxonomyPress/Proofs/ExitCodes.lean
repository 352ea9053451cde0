import TaxonomyPress.Proofs.Loading
import TaxonomyPress.Proofs.RedirectOrder
import TaxonomyPress.Proofs.Report
import TaxonomyPress.Proofs.TextIndependence

/-!
# What a call comes to

Nothing is assumed of what reads arguments, settings and documents. A document with a fault is one
whose reader reports it.

* `Disk.read?_eq_none_iff` : when a file cannot be read;
* `CannotLoad` : why a run cannot be loaded; there are no other reasons (`fails_loadTaxonomy_iff`);
* `Arguments.run_of_fails`, `run_of_generate_error`, `run_of_stubs_error`, `run_eq` : what a run comes
  to, by the first of its steps that fails;
* `Taxonomy.all_fail_iff` : when a report says that no class could be resolved;
* `read?_writeStubs` : stubs leave the documents as they are;
* `exit_code_truthful` : so the exit code of a call says what became of it.
-/

namespace TaxonomyPress

variable {tools : Tools} {given : Arguments} {disk : Disk} {tree written after : FileTree}
  {settings : Settings} {T : Taxonomy}

/-! ## Loading -/

/-- A file cannot be read if nobody may, if it is no text or if there is none. -/
theorem Disk.read?_eq_none_iff {path : UnixPath} :
    disk.read? path = none ↔ FileTree.placeOf path ∈ disk.unreadable ∨ disk.tree.read? path = none := by
  unfold Disk.read?
  split
  · rename_i hplace
    exact iff_of_true rfl (Or.inl hplace)
  · rename_i hplace
    exact (or_iff_right hplace).symm

theorem fails_loadSettings_iff {config : Option UnixPath} :
    Fails (loadSettings tools disk config) ↔ ∃ path, config = some path ∧
      ∀ document, disk.read? path = some document → Fails (tools.readSettings document) := by
  cases config with
  | none => exact iff_of_false (not_fails_ok _) (by simp)
  | some path =>
    unfold loadSettings
    simp only [Option.some.injEq, exists_eq_left']
    cases disk.read? path with
    | none => exact iff_of_true (fails_error _) nofun
    | some document =>
      simp only [Option.some.injEq, forall_eq']
      cases tools.readSettings document with
      | ok settings => exact iff_of_false (not_fails_ok _) (not_fails_ok _)
      | error cause => exact iff_of_true (fails_error _) (fails_error _)

theorem inputFormat_eq_ok_iff {format : Format} : given.inputFormat = .ok format ↔
    given.format.or (Format.ofPath given.input) = some format := by
  unfold Arguments.inputFormat
  cases given.format.or (Format.ofPath given.input) with
  | none => exact iff_of_false nofun nofun
  | some format => simp

theorem loadTaxonomy_eq_ok_iff : loadTaxonomy tools given disk = .ok (settings, T) ↔
    ∃ format document store, given.format.or (Format.ofPath given.input) = some format ∧
      loadSettings tools disk given.config = .ok settings ∧
      disk.read? given.input = some document ∧
      loadWith tools.readStatements format document = .ok store ∧
      ⟨store, settings.namespaceTable⟩ = T := by
  unfold loadTaxonomy
  simp only [bind_eq_ok_iff, inputFormat_eq_ok_iff]
  constructor
  · rintro ⟨format, hformat, settings', hsettings, h⟩
    split at h
    · cases h
    · rename_i document hread
      split at h
      · cases h
      · rename_i store hstore
        cases h
        exact ⟨format, document, store, hformat, hsettings, hread, hstore, rfl⟩
  · rintro ⟨format, document, store, hformat, hsettings, hread, hstore, rfl⟩
    refine ⟨format, hformat, settings, hsettings, ?_⟩
    rw [hread]
    dsimp only
    rw [hstore]

/-- Why a run cannot be loaded: no format, settings that cannot be read or are none, or an input that
cannot be read, has a fault or says something that no triple represents. -/
inductive CannotLoad (tools : Tools) (given : Arguments) (disk : Disk) : Prop where
  | format (hgiven : given.format = none) (hending : Format.ofPath given.input = none)
  | settingsUnread {path : UnixPath} (hconfig : given.config = some path)
      (hread : disk.read? path = none)
  | settingsInvalid {path : UnixPath} {document : String} (hconfig : given.config = some path)
      (hread : disk.read? path = some document) (hfails : Fails (tools.readSettings document))
  | inputUnread (hread : disk.read? given.input = none)
  | inputFaulty {format : Format} {document : String} {fault : SyntaxFault}
      (hformat : given.format.or (Format.ofPath given.input) = some format)
      (hread : disk.read? given.input = some document)
      (hfault : (tools.readStatements format document).fault = some fault)
  | inputUnrepresentable {format : Format} {document : String} {s : Statement}
      (hformat : given.format.or (Format.ofPath given.input) = some format)
      (hread : disk.read? given.input = some document)
      (hs : s ∈ (tools.readStatements format document).statements) (hnone : ¬ s.Representable)

theorem CannotLoad.fails (h : CannotLoad tools given disk) :
    Fails (loadTaxonomy tools given disk) := by
  by_contra hloads
  obtain ⟨⟨settings, T⟩, hload⟩ := not_fails_iff.1 hloads
  obtain ⟨format, document, store, hformat, hsettings, hread, hstore, -⟩ :=
    loadTaxonomy_eq_ok_iff.1 hload
  have hconfig : ¬ Fails (loadSettings tools disk given.config) := not_fails_iff.2 ⟨_, hsettings⟩
  rw [fails_loadSettings_iff] at hconfig
  obtain ⟨hend, hall⟩ := exists_collect_eq_ok_iff.1 ⟨store, hstore⟩
  cases h with
  | format hgiven hending =>
    rw [hgiven, hending] at hformat
    cases hformat
  | settingsUnread hpath hunread =>
    exact hconfig ⟨_, hpath, by rw [hunread]; exact nofun⟩
  | settingsInvalid hpath hfound hfails =>
    refine hconfig ⟨_, hpath, fun document' hread' => ?_⟩
    rwa [← Option.some.inj (hfound.symm.trans hread')]
  | inputUnread hunread =>
    rw [hunread] at hread
    cases hread
  | inputFaulty hformat' hread' hfault =>
    obtain rfl := Option.some.inj (hformat.symm.trans hformat')
    obtain rfl := Option.some.inj (hread.symm.trans hread')
    rw [hend] at hfault
    cases hfault
  | inputUnrepresentable hformat' hread' hs hnone =>
    obtain rfl := Option.some.inj (hformat.symm.trans hformat')
    obtain rfl := Option.some.inj (hread.symm.trans hread')
    exact hnone (hall _ hs)

theorem exists_loadTaxonomy (h : ¬ CannotLoad tools given disk) :
    ∃ settings T, loadTaxonomy tools given disk = .ok (settings, T) := by
  cases hformat : given.format.or (Format.ofPath given.input) with
  | none => exact absurd (.format (Option.or_eq_none_iff.1 hformat).1
      (Option.or_eq_none_iff.1 hformat).2) h
  | some format =>
  cases hread : disk.read? given.input with
  | none => exact absurd (.inputUnread hread) h
  | some document =>
  have hsettings : ¬ Fails (loadSettings tools disk given.config) := by
    rw [fails_loadSettings_iff]
    rintro ⟨path, hconfig, hfails⟩
    cases hfound : disk.read? path with
    | none => exact h (.settingsUnread hconfig hfound)
    | some text => exact h (.settingsInvalid hconfig hfound (hfails text hfound))
  have hend : (tools.readStatements format document).fault = none := by
    cases hfault : (tools.readStatements format document).fault with
    | none => rfl
    | some fault => exact absurd (.inputFaulty hformat hread hfault) h
  have hall : ∀ s ∈ (tools.readStatements format document).statements, s.Representable := by
    intro s hs
    by_contra hnone
    exact h (.inputUnrepresentable hformat hread hs hnone)
  obtain ⟨settings, hsettings⟩ := not_fails_iff.1 hsettings
  obtain ⟨store, hstore⟩ := exists_collect_eq_ok_iff.2 ⟨hend, hall⟩
  exact ⟨_, _, loadTaxonomy_eq_ok_iff.2
    ⟨format, document, store, hformat, hsettings, hread, hstore, rfl⟩⟩

theorem fails_loadTaxonomy_iff :
    Fails (loadTaxonomy tools given disk) ↔ CannotLoad tools given disk := by
  refine ⟨fun hfails => ?_, CannotLoad.fails⟩
  by_contra h
  obtain ⟨settings, T, hload⟩ := exists_loadTaxonomy h
  exact not_fails_iff.2 ⟨_, hload⟩ hfails

/-! ## Runs -/

section Run

variable {report : GenerationReport} {lines : List String} {e : FileError}

/-- Nothing is changed before everything is loaded. -/
theorem Arguments.run_of_fails (h : Fails (loadTaxonomy tools given disk)) :
    (given.run disk tools).tree = disk.tree ∧ (given.run disk tools).code = 1 := by
  obtain ⟨cause, hcause⟩ := h
  unfold Arguments.run
  rw [hcause]
  exact ⟨rfl, rfl⟩

variable (hload : loadTaxonomy tools given disk = .ok (settings, T))
include hload

theorem Arguments.run_of_generate_error
    (hgenerate : T.generate settings disk.tree given.out tools.print = (written, .error e)) :
    (given.run disk tools).code = 1 := by
  unfold Arguments.run
  rw [hload]
  dsimp only
  rw [hgenerate]
  rfl

theorem Arguments.run_of_stubs_error
    (hgenerate : T.generate settings disk.tree given.out tools.print = (written, .ok report))
    (hstubs : writeStubs given written = (after, .error e)) : (given.run disk tools).code = 1 := by
  unfold Arguments.run
  rw [hload]
  dsimp only
  rw [hgenerate]
  dsimp only
  rw [hstubs]
  rfl

theorem Arguments.run_eq
    (hgenerate : T.generate settings disk.tree given.out tools.print = (written, .ok report))
    (hstubs : writeStubs given written = (after, .ok lines)) :
    (given.run disk tools).tree = after ∧ (given.run disk tools).code =
      if 0 < report.classCount ∧ report.failures.length = report.classCount then 1 else 0 := by
  unfold Arguments.run
  rw [hload]
  dsimp only
  rw [hgenerate]
  dsimp only
  rw [hstubs]
  refine ⟨rfl, ?_⟩
  unfold Outcome.code
  dsimp only
  split
  · rfl
  · rfl

end Run

/-- A report says that no class could be resolved where there are classes and all of them failed. -/
theorem Taxonomy.all_fail_iff (T : Taxonomy) (settings : Settings) :
    0 < (T.report settings).classCount ∧
        (T.report settings).failures.length = (T.report settings).classCount ↔
      T.classes ≠ [] ∧ ∀ n ∈ T.classes, Fails (T.classDocuments settings n) := by
  have hlength := T.length_builtClasses settings
  have hnone : (T.build settings).failures.length = T.classes.length ↔
      T.builtClasses settings = [] := by
    rw [← List.length_eq_zero_iff]
    omega
  refine and_congr List.length_pos_iff (hnone.trans ?_)
  unfold builtClasses
  rw [List.filter_eq_nil_iff]
  simp

theorem respond_of_run (disk : Disk) {arguments : List String}
    (h : tools.readArguments arguments = .run given) :
    (respond arguments disk tools).tree = (given.run disk tools).tree ∧
      (respond arguments disk tools).code = (given.run disk tools).code := by
  unfold respond
  rw [h]
  exact ⟨rfl, rfl⟩

/-! ## Written documents -/

/-- Stubs leave the documents as they are. -/
theorem read?_writeStubs (hwritten : written.WellFormed) {lines : List String}
    (h : writeStubs given written = (after, .ok lines)) {path : UnixPath} {front : Place}
    {name text : String} (hplace : FileTree.placeOf path = front ++ [name ++ ".jsonld"])
    (hread : written.read? path = some text) : after.read? path = some text := by
  unfold writeStubs at h
  split at h
  · generalize hrun : written.writeRedirects given.out = run at h
    obtain ⟨stubbed, outcome⟩ := run
    cases outcome with
    | error e => cases h
    | ok count =>
      cases h
      exact (hwritten.redirected hrun).read?_document hwritten hplace hread
  · cases h
    exact hread

theorem FileTree.exists_placeOf_of_ending {path : UnixPath} {front : String}
    (h : path.text = front ++ ".jsonld") :
    ∃ up name, placeOf path = up ++ [name ++ ".jsonld"] := by
  obtain ⟨last, hlast⟩ := getLast?_segments_of_ending h
  obtain ⟨names, name, hname, hnames, hup⟩ :=
    exists_components_of_endsInName (endsInName_of_ending h)
  obtain rfl : last ++ ".jsonld" = name := Option.some.inj (hlast.symm.trans hname)
  exact ⟨_, last, placeOf_concat hnames hup⟩

theorem Taxonomy.exists_placeOf_of_mem_documents {d : Document} (out : UnixPath)
    (hd : d ∈ (T.build settings).documents) :
    ∃ up name, FileTree.placeOf (out.join d.path) = up ++ [name ++ ".jsonld"] := by
  obtain ⟨front, hfront⟩ := exists_text_join out hd
  exact FileTree.exists_placeOf_of_ending hfront

/-- **The exit code tells the truth**, whatever reads arguments, settings and documents and prints
bodies. A run that cannot be loaded exits with 1 and leaves all files as they are, and every other is
loaded. It exits with 1 if a file cannot be written. Else all documents are there, each with the last
text that was for its place, and the exit code is 1 just when there are classes and all of them
failed. -/
theorem exit_code_truthful (tools : Tools) {arguments : List String} {disk : Disk}
    (htree : disk.tree.WellFormed) (hgiven : tools.readArguments arguments = .run given) :
    (CannotLoad tools given disk → (respond arguments disk tools).code = 1 ∧
      (respond arguments disk tools).tree = disk.tree) ∧
    (¬ CannotLoad tools given disk →
      ∃ settings T, loadTaxonomy tools given disk = .ok (settings, T)) ∧
    ∀ settings T, loadTaxonomy tools given disk = .ok (settings, T) →
      (∀ written e, T.generate settings disk.tree given.out tools.print = (written, .error e) →
        (respond arguments disk tools).code = 1) ∧
      ∀ written report,
        T.generate settings disk.tree given.out tools.print = (written, .ok report) →
        (∀ after e, writeStubs given written = (after, .error e) →
          (respond arguments disk tools).code = 1) ∧
        ∀ after lines, writeStubs given written = (after, .ok lines) →
          (respond arguments disk tools).tree = after ∧
          (∀ d ∈ (T.build settings).documents, ∃ text,
            FileTree.lastText?
                (FileTree.documentTexts given.out (T.build settings).documents tools.print)
                (FileTree.placeOf (given.out.join d.path)) = some text ∧
            after.read? (given.out.join d.path) = some text) ∧
          (respond arguments disk tools).code =
            if T.classes ≠ [] ∧ ∀ n ∈ T.classes, Fails (T.classDocuments settings n) then 1
            else 0 := by
  obtain ⟨htreeEq, hcode⟩ := respond_of_run disk hgiven
  rw [htreeEq, hcode]
  refine ⟨fun hcannot => (Arguments.run_of_fails hcannot.fails).symm, exists_loadTaxonomy, ?_⟩
  intro settings T hload
  refine ⟨fun written e => Arguments.run_of_generate_error hload, ?_⟩
  intro written report hgenerate
  refine ⟨fun after e => Arguments.run_of_stubs_error hload hgenerate, ?_⟩
  intro after lines hstubs
  obtain ⟨hafter, hcode'⟩ := Arguments.run_eq hload hgenerate hstubs
  obtain ⟨htexts, rfl⟩ := Taxonomy.generate_eq_ok hgenerate
  refine ⟨hafter, fun d hd => ?_, ?_⟩
  · obtain ⟨text, hlast, hread⟩ := FileTree.exists_read?_of_writeTexts htexts
      (given.out.join d.path, documentText tools.print d.body) (List.mem_map.2 ⟨d, hd, rfl⟩)
    -- a document may be outside of the directory, but its name is none of a stub
    obtain ⟨up, name, hplace⟩ := Taxonomy.exists_placeOf_of_mem_documents given.out hd
    exact ⟨text, hlast, read?_writeStubs (htree.writeTexts htexts) hstubs hplace hread⟩
  · rw [hcode']
    simp only [Taxonomy.all_fail_iff]

/-! ## A hut and a shed -/

/-- Where documents are to lie, without their texts. -/
def blankDocuments (out : UnixPath) (addresses : List (Section × Lineage)) :
    List (UnixPath × String) :=
  addresses.map fun a => (out.join (documentPath a.1 a.2), "")

/-- Whether a run comes to its end shows without texts. -/
theorem exists_run_of_blank (print : Json → String)
    (hwrite : ¬ Fails (tree.blank.writeTexts
      (blankDocuments given.out (T.buildAddresses settings))).2)
    (hstubs : ¬ Fails ((tree.blank.writeTexts
      (blankDocuments given.out (T.buildAddresses settings))).1.writeRedirects given.out).2) :
    ∃ written report after lines, T.generate settings tree given.out print = (written, .ok report) ∧
      writeStubs given written = (after, .ok lines) := by
  have htexts : FileTree.blankTexts
      (FileTree.documentTexts given.out (T.build settings).documents print) =
        blankDocuments given.out (T.buildAddresses settings) := by
    have hpaths : (T.build settings).documents.map Document.path =
        (T.buildAddresses settings).map fun a => documentPath a.1 a.2 :=
      Taxonomy.map_path_documents
    replace hpaths := congrArg (List.map fun path => (given.out.join path, "")) hpaths
    rw [List.map_map, List.map_map] at hpaths
    unfold FileTree.blankTexts FileTree.documentTexts blankDocuments
    rw [List.map_map]
    exact hpaths
  rw [← htexts, FileTree.writeTexts_blank] at hwrite hstubs
  cases hrun : tree.writeTexts
      (FileTree.documentTexts given.out (T.build settings).documents print) with
  | mk written outcome =>
  rw [hrun] at hwrite hstubs
  obtain ⟨_, rfl : outcome = .ok ()⟩ := not_fails_iff.1 hwrite
  have hsame := (FileTree.writeRedirects_alike (FileTree.blank_blank written) given.out).2
  obtain ⟨count, hcount⟩ := not_fails_iff.1 hstubs
  have hlines : ∃ lines, (writeStubs given written).2 = .ok lines := by
    unfold writeStubs
    dsimp only
    rw [hsame.symm.trans hcount]
    split
    · exact ⟨_, rfl⟩
    · exact ⟨_, rfl⟩
  obtain ⟨lines, hlines⟩ := hlines
  exact ⟨written, _, _, lines, Taxonomy.generate_eq (FileTree.writeDocuments_eq hrun),
    Prod.ext rfl hlines⟩

def hutCall : List String := ["t.ttl", "--out", "out", "--config", "t.toml", "--redirects"]

def hutArguments : Arguments := ⟨⟨"t.ttl"⟩, none, ⟨"out"⟩, some ⟨"t.toml"⟩, true⟩

def hutToml : String := "excluded_classes = [\"http://x/o#Hut\"]\n"

def hutSettings : Settings := { excludedClasses := ["http://x/o#Hut"] }

/-- A shed has no name. -/
def shedSource : String :=
  "@prefix s: <http://www.w3.org/2000/01/rdf-schema#> .\n_:shed a s:Class .\n"

def hutSource : String := shedSource ++ "<http://x/o#Hut> a s:Class .\n"

/-- The statement that a term is a class, and its triple. -/
def classStatement (term : Term) : Statement :=
  ⟨.term term, .term (.iri Rdf.type), .term (.iri Rdfs.classType), none⟩

def classTriple (term : Term) : Triple := ⟨term, Rdf.type, .iri Rdfs.classType⟩

def shed : Taxonomy := ⟨.ofList [classTriple (.blank "shed")], hutSettings.namespaceTable⟩

def hutAndShed : Taxonomy :=
  ⟨.ofList [classTriple (.blank "shed"), classTriple (.iri "http://x/o#Hut")],
    hutSettings.namespaceTable⟩

/-- A disk with a document and a file of settings. -/
def hutDisk (document settings : String) : Disk where
  tree := ⟨[(["t.ttl"], .file document), (["t.toml"], .file settings)]⟩

/-- The settings leave the hut without context and class definition. -/
def hutAddresses : List (Section × Lineage) :=
  [(.vocabulary, ["Hut"]), (.ontology, ["Hut"]), (.vocabulary, ["index"])]

def shedAddresses : List (Section × Lineage) := [(.vocabulary, ["index"])]

/-- What the tools read from the call and from the files. -/
theorem hutFiles_read :
    Tools.standard.readArguments hutCall = .run hutArguments ∧
      Tools.standard.readSettings hutToml = .ok hutSettings ∧
      Turtle.parse shedSource = some [classStatement (.blank "shed")] ∧
      Turtle.parse hutSource =
        some [classStatement (.blank "shed"), classStatement (.iri "http://x/o#Hut")] ∧
      Turtle.parse "<" = none ∧ Fails (Tools.standard.readSettings "colour = 1") := by
  decide +kernel

/-- The hut is the one class with a name, and the settings exclude it. -/
theorem hut_named :
    shed.classes = [.ofClass (.blank "shed")] ∧
      hutAndShed.classes = [.ofClass (.blank "shed"), .ofClass (.iri "http://x/o#Hut")] ∧
      hutAndShed.split (.ofClass (.iri "http://x/o#Hut")) = .ok ("o", "Hut") ∧
      hutSettings.excludes hutAndShed (.ofClass (.iri "http://x/o#Hut")) = true ∧
      hutAndShed.hasChildren (.ofClass (.iri "http://x/o#Hut")) = false := by
  decide +kernel

theorem wellFormed_hutDisk (document settings : String) :
    (hutDisk document settings).tree.WellFormed := by
  have hnames : isEntryName "t.ttl" = true ∧ isEntryName "t.toml" = true := by decide
  constructor
  case once => exact (by decide : [["t.ttl"], ["t.toml"]].Nodup)
  case resolved =>
    refine List.forall_mem_cons.2 ⟨?_, List.forall_mem_singleton.2 ?_⟩
    · exact .of_forall (List.forall_mem_singleton.2 hnames.1)
    · exact .of_forall (List.forall_mem_singleton.2 hnames.2)
  case inside => exact List.forall_mem_cons.2 ⟨rfl, List.forall_mem_singleton.2 rfl⟩

theorem loadTaxonomy_hutDisk {document : String} {statements : List Statement}
    {triples : List Triple} (hparse : Turtle.parse document = some statements)
    (hsaid : List.Forall₂ Statement.Says statements triples) :
    loadTaxonomy .standard hutArguments (hutDisk document hutToml) =
      .ok (hutSettings, ⟨.ofList triples, hutSettings.namespaceTable⟩) := by
  have hread : readStatements .turtle document = { statements } := by
    unfold readStatements
    dsimp only
    rw [hparse]
    rfl
  obtain ⟨-, hsettings, -⟩ := hutFiles_read
  have hdocument : (hutDisk document hutToml).read? hutArguments.input = some document := rfl
  have htoml : (hutDisk document hutToml).read? ⟨"t.toml"⟩ = some hutToml := rfl
  refine loadTaxonomy_eq_ok_iff.2
    ⟨.turtle, document, .ofList triples, rfl, ?settings, hdocument, ?store, rfl⟩
  case settings =>
    unfold loadSettings hutArguments
    dsimp only
    rw [htoml]
    dsimp only
    rw [hsettings]
  case store =>
    unfold loadWith
    dsimp only [Tools.standard]
    rw [hread]
    exact collect_of_represented rfl hsaid

theorem loadTaxonomy_shed :
    loadTaxonomy .standard hutArguments (hutDisk shedSource hutToml) = .ok (hutSettings, shed) := by
  obtain ⟨-, -, hparse, -⟩ := hutFiles_read
  exact loadTaxonomy_hutDisk hparse (.cons ⟨.blank _, rfl, .iri _⟩ .nil)

theorem loadTaxonomy_hutAndShed :
    loadTaxonomy .standard hutArguments (hutDisk hutSource hutToml) =
      .ok (hutSettings, hutAndShed) := by
  obtain ⟨-, -, -, hparse, -⟩ := hutFiles_read
  exact loadTaxonomy_hutDisk hparse
    (.cons ⟨.blank _, rfl, .iri _⟩ (.cons ⟨.iri _, rfl, .iri _⟩ .nil))

theorem fails_shed (T : Taxonomy) :
    Fails (T.classDocuments hutSettings (.ofClass (.blank "shed"))) :=
  Taxonomy.fails_classDocuments_of_canonicalId ⟨⟨"_:shed"⟩, rfl⟩

theorem buildAddresses_shed : shed.buildAddresses hutSettings = shedAddresses := by
  obtain ⟨hclasses, -⟩ := hut_named
  rw [Taxonomy.buildAddresses, hclasses, List.flatMap_singleton,
    Taxonomy.addresses_eq_nil (fails_shed shed)]
  rfl

theorem hut_built : ∃ bodies, hutAndShed.Built hutSettings (.ofClass (.iri "http://x/o#Hut"))
    [["Hut"]] bodies "o:Hut" := by
  obtain ⟨-, -, hsplit, -⟩ := hut_named
  exact Taxonomy.exists_built_of_root hutSettings (by decide) hsplit
    (Taxonomy.allProperties_eq_nil (by decide) _)

theorem buildAddresses_hutAndShed : hutAndShed.buildAddresses hutSettings = hutAddresses := by
  obtain ⟨-, hclasses, -, hexcluded, hchildless⟩ := hut_named
  obtain ⟨bodies, hbuilt⟩ := hut_built
  rw [Taxonomy.buildAddresses, hclasses, List.flatMap_cons, List.flatMap_singleton,
    Taxonomy.addresses_eq_nil (fails_shed hutAndShed), hbuilt.addresses_eq, List.flatMap_singleton,
    hbuilt.lineageAddresses_eq, hexcluded, hchildless]
  rfl

theorem exists_run_hutDisk {T : Taxonomy} (document : String)
    (h : T.buildAddresses hutSettings ∈ [hutAddresses, shedAddresses]) :
    ∃ written report after lines,
      T.generate hutSettings (hutDisk document hutToml).tree hutArguments.out Json.pretty =
        (written, .ok report) ∧ writeStubs hutArguments written = (after, .ok lines) := by
  have hruns : ∀ addresses ∈ [hutAddresses, shedAddresses],
      ¬ Fails ((hutDisk "" "").tree.writeTexts (blankDocuments ⟨"out"⟩ addresses)).2 ∧
        ¬ Fails (((hutDisk "" "").tree.writeTexts
          (blankDocuments ⟨"out"⟩ addresses)).1.writeRedirects ⟨"out"⟩).2 := by decide +kernel
  obtain ⟨hwrite, hstubs⟩ := hruns _ h
  have hblank : (hutDisk document hutToml).tree.blank = (hutDisk "" "").tree := rfl
  apply exists_run_of_blank
  · rw [hblank]
    exact hwrite
  · rw [hblank]
    exact hstubs

/-- Beside a hut a shed may fail, and alone it may not, but the root index is written all the same. A
document or settings that cannot be read, or that are none, change nothing. -/
theorem hut_exits_zero :
    ((respond hutCall (hutDisk hutSource hutToml) .standard).code = 0 ∧
      ∀ d ∈ (hutAndShed.build hutSettings).documents, ∃ text,
        (respond hutCall (hutDisk hutSource hutToml) .standard).tree.read?
          (UnixPath.join ⟨"out"⟩ d.path) = some text) ∧
    ((respond hutCall (hutDisk shedSource hutToml) .standard).code = 1 ∧
      ∃ text, (respond hutCall (hutDisk shedSource hutToml) .standard).tree.read?
        (UnixPath.join ⟨"out"⟩ rootIndexPath) = some text) ∧
    (∀ name ∈ ["t.ttl", "t.toml"],
      (respond hutCall ⟨(hutDisk hutSource hutToml).tree, [[name]]⟩ .standard).code = 1 ∧
      (respond hutCall ⟨(hutDisk hutSource hutToml).tree, [[name]]⟩ .standard).tree =
        (hutDisk hutSource hutToml).tree) ∧
    ∀ texts ∈ [("<", hutToml), (hutSource, "colour = 1")],
      (respond hutCall (hutDisk texts.1 texts.2) .standard).code = 1 ∧
      (respond hutCall (hutDisk texts.1 texts.2) .standard).tree =
        (hutDisk texts.1 texts.2).tree := by
  obtain ⟨hcall, -, -, -, hbroken, hunknown⟩ := hutFiles_read
  obtain ⟨hshed, hhut, -⟩ := hut_named
  have hmain (disk : Disk) (htree : disk.tree.WellFormed) :=
    exit_code_truthful .standard htree hcall
  refine ⟨?hut, ?shed, ?unread, ?invalid⟩
  case hut =>
    have haddresses : hutAndShed.buildAddresses hutSettings ∈ [hutAddresses, shedAddresses] := by
      rw [buildAddresses_hutAndShed]
      exact List.mem_cons_self
    obtain ⟨written, report, after, lines, hgenerate, hstubs⟩ :=
      exists_run_hutDisk hutSource haddresses
    obtain ⟨-, hruns⟩ := (hmain _ (wellFormed_hutDisk hutSource hutToml)).2.2 _ _
      loadTaxonomy_hutAndShed
    obtain ⟨hafter, hdocuments, hcode⟩ := (hruns written report hgenerate).2 after lines hstubs
    have hbuilds : ¬ Fails (hutAndShed.classDocuments hutSettings
        (.ofClass (.iri "http://x/o#Hut"))) := by
      obtain ⟨bodies, hbuilt⟩ := hut_built
      exact not_fails_iff.2
        ⟨_, Taxonomy.classDocuments_eq_ok_iff.2 ⟨_, _, _, hbuilt, rfl⟩⟩
    have hclass : .ofClass (.iri "http://x/o#Hut") ∈ hutAndShed.classes := by
      rw [hhut]
      exact List.mem_cons_of_mem _ (List.mem_singleton_self _)
    rw [hcode, if_neg fun h => hbuilds (h.2 _ hclass), hafter]
    refine ⟨rfl, fun d hd => ?_⟩
    obtain ⟨text, -, hread⟩ := hdocuments d hd
    exact ⟨text, hread⟩
  case shed =>
    have haddresses : shed.buildAddresses hutSettings ∈ [hutAddresses, shedAddresses] := by
      rw [buildAddresses_shed]
      exact List.mem_cons_of_mem _ (List.mem_singleton_self _)
    obtain ⟨written, report, after, lines, hgenerate, hstubs⟩ :=
      exists_run_hutDisk shedSource haddresses
    obtain ⟨-, hruns⟩ := (hmain _ (wellFormed_hutDisk shedSource hutToml)).2.2 _ _
      loadTaxonomy_shed
    obtain ⟨hafter, hdocuments, hcode⟩ := (hruns written report hgenerate).2 after lines hstubs
    have hfails : ∀ n ∈ shed.classes, Fails (shed.classDocuments hutSettings n) := by
      rw [hshed]
      exact List.forall_mem_singleton.2 (fails_shed shed)
    have hsome : shed.classes ≠ [] := by
      rw [hshed]
      exact List.cons_ne_nil _ _
    rw [hcode, if_pos ⟨hsome, hfails⟩, hafter]
    obtain ⟨text, -, hread⟩ := hdocuments (shed.rootDocument hutSettings)
      (Taxonomy.mem_documents_build_iff.2 (Or.inr rfl))
    exact ⟨rfl, text, hread⟩
  case unread =>
    have hinput : FileTree.placeOf hutArguments.input ∈ [["t.ttl"]] := by decide
    have hconfig : FileTree.placeOf ⟨"t.toml"⟩ ∈ [["t.toml"]] := by decide
    have hunread (name : String) := hmain ⟨(hutDisk hutSource hutToml).tree, [[name]]⟩
      (wellFormed_hutDisk hutSource hutToml)
    refine List.forall_mem_cons.2 ⟨?_, List.forall_mem_singleton.2 ?_⟩
    · exact (hunread "t.ttl").1 (.inputUnread (Disk.read?_eq_none_iff.2 (Or.inl hinput)))
    · exact (hunread "t.toml").1
        (.settingsUnread rfl (Disk.read?_eq_none_iff.2 (Or.inl hconfig)))
  case invalid =>
    have hformat : hutArguments.format.or (Format.ofPath hutArguments.input) = some .turtle := by
      decide
    have hread : Tools.standard.readStatements .turtle "<" = .ofReading none := by
      dsimp only [Tools.standard]
      unfold readStatements
      dsimp only
      rw [hbroken]
    have hfault : (Tools.standard.readStatements .turtle "<").fault = some {} := by
      rw [hread]
      rfl
    have hinput : (hutDisk "<" hutToml).read? hutArguments.input = some "<" := rfl
    have hconfig : (hutDisk hutSource "colour = 1").read? ⟨"t.toml"⟩ = some "colour = 1" := rfl
    have hfaulty : CannotLoad .standard hutArguments (hutDisk "<" hutToml) :=
      .inputFaulty hformat hinput hfault
    have hinvalid : CannotLoad .standard hutArguments (hutDisk hutSource "colour = 1") :=
      .settingsInvalid rfl hconfig hunknown
    refine List.forall_mem_cons.2 ⟨?_, List.forall_mem_singleton.2 ?_⟩
    · exact (hmain _ (wellFormed_hutDisk "<" hutToml)).1 hfaulty
    · exact (hmain _ (wellFormed_hutDisk hutSource "colour = 1")).1 hinvalid

end TaxonomyPress
