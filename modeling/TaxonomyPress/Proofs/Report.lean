import Mathlib.Algebra.GroupWithZero.Nat
import TaxonomyPress.Proofs.Collisions
import TaxonomyPress.Proofs.Failures

/-!
# What a report counts

* `Taxonomy.builtClasses`, `Taxonomy.lineageCount` : the classes that are built, and how many lineages
  a class has;
* `Taxonomy.countUnder` : how many documents of a kind a class has under each lineage;
* `Taxonomy.count_build` : the documents of a kind in a build, as a sum over its classes;
* `Taxonomy.report_accounts` : so every count of a report is such a sum, and together they are the
  documents that were written.
-/

namespace TaxonomyPress

/-- Every document is of one kind. -/
theorem DocumentSet.length_eq_sum_count (set : DocumentSet) :
    set.documents.length = set.count .vocabulary + set.count .identity + set.count .definition +
      set.count .index + set.count .ontology := by
  unfold count
  generalize set.documents = documents
  induction documents with
  | nil => rfl
  | cons d documents ih =>
    obtain ⟨kind, path, body⟩ := d
    simp only [List.countP_cons, List.length_cons]
    cases kind <;> simp <;> omega

/-- A sum that skips members is one over the others. -/
theorem sum_map_mul_toNat {α : Type} (f : α → Nat) (p : α → Bool) (xs : List α) :
    (xs.map fun x => f x * (p x).toNat).sum = ((xs.filter p).map f).sum := by
  induction xs with
  | nil => rfl
  | cons x xs ih =>
    rw [List.map_cons, List.sum_cons, ih, List.filter_cons]
    cases p x <;> simp

theorem flatMap_eq_flatMap_filter {α β : Type} {f : α → List β} {p : α → Bool} {xs : List α}
    (h : ∀ x, p x = false → f x = []) : xs.flatMap f = (xs.filter p).flatMap f := by
  induction xs with
  | nil => rfl
  | cons x xs ih =>
    rw [List.flatMap_cons, List.filter_cons, ih]
    cases hx : p x with
    | true => rfl
    | false => rw [h x hx]; rfl

namespace Taxonomy

variable {T : Taxonomy} {settings : Settings} {n : Node} {kind : DocumentKind}

/-! ## Reports -/

/-- What a run that comes to its end reports. -/
def report (T : Taxonomy) (settings : Settings) : GenerationReport :=
  T.reportOf settings (T.build settings).documents.length

theorem generate_eq_ok {tree written : FileTree} {out : UnixPath} {print : Json → String}
    {report : GenerationReport} (h : T.generate settings tree out print = (written, .ok report)) :
    tree.writeTexts (FileTree.documentTexts out (T.build settings).documents print) =
        (written, .ok ()) ∧
      report = T.report settings := by
  cases hwrite : tree.writeDocuments out (T.build settings).documents print with
  | mk after outcome =>
  rw [generate_eq hwrite] at h
  cases outcome with
  | error e => cases h
  | ok count =>
    cases h
    obtain ⟨htexts, rfl⟩ := FileTree.writeDocuments_eq_ok hwrite
    exact ⟨htexts, rfl⟩

/-! ## The documents of one class -/

/-- The classes that are built, in class order. -/
def builtClasses (T : Taxonomy) (settings : Settings) : List Node :=
  T.classes.filter fun n => ¬ Fails (T.classDocuments settings n)

/-- How many lineages a class has. -/
def lineageCount (T : Taxonomy) (n : Node) : Nat :=
  match T.lineages n with
  | .ok lineages => lineages.length
  | .error _ => 0

/-- How many documents of a kind a class has under each of its lineages. -/
def countUnder (T : Taxonomy) (settings : Settings) (n : Node) : DocumentKind → Nat
  | .vocabulary => 1
  | .identity => (!settings.excludes T n).toNat
  | .definition => (!settings.excludes T n).toNat
  | .index => (T.hasChildren n).toNat
  | .ontology => 0

theorem countP_lineageDocuments {bodies : ClassBodies} (h : T.classBodies settings n = .ok bodies)
    (l : Lineage) : (T.lineageDocuments settings n bodies l).countP (·.kind = kind) =
      T.countUnder settings n kind := by
  unfold lineageDocuments countUnder
  cases hexcluded : settings.excludes T n with
  | true =>
    obtain ⟨vocabulary, rfl⟩ := exists_bodies_of_excluded h hexcluded
    cases kind <;> cases T.hasChildren n <;> rfl
  | false =>
    obtain ⟨vocabulary, identity, definition, rfl, -⟩ := exists_bodies_of_included h hexcluded
    cases kind <;> cases T.hasChildren n <;> rfl

theorem countP_builtDocuments (h : ¬ Fails (T.classDocuments settings n)) :
    (T.builtDocuments settings n).countP (·.kind = kind) =
      T.lineageCount n * T.countUnder settings n kind + if kind = .ontology then 1 else 0 := by
  obtain ⟨documents, hdocuments⟩ := not_fails_iff.1 h
  obtain ⟨lineages, bodies, id, hbuilt, rfl⟩ := classDocuments_eq_ok_iff.1 hdocuments
  have hunder : ∀ l, (T.lineageDocuments settings n bodies l).countP (·.kind = kind) =
      T.countUnder settings n kind := countP_lineageDocuments hbuilt.bodies_eq
  have hcount : T.lineageCount n = lineages.length := by
    unfold lineageCount
    rw [hbuilt.lineages_eq]
  have hfragment : [T.fragmentDocument settings n id].countP (·.kind = kind) =
      if kind = .ontology then 1 else 0 := by
    cases kind <;> rfl
  unfold builtDocuments
  rw [hdocuments]
  show List.countP _ (_ ++ _) = _
  rw [List.countP_append, List.countP_flatMap, hfragment, hcount]
  simp only [Function.comp_def, hunder, List.map_const', List.sum_replicate_nat]

theorem builtDocuments_of_fails (h : Fails (T.classDocuments settings n)) :
    T.builtDocuments settings n = [] := by
  obtain ⟨cause, hcause⟩ := h
  unfold builtDocuments
  rw [hcause]
  rfl

/-! ## The documents of a build -/

/-- **Counts**: what the classes that are built have of a kind, and the root index. -/
theorem count_build (T : Taxonomy) (settings : Settings) (kind : DocumentKind) :
    (T.build settings).count kind = ((T.builtClasses settings).map fun n =>
      T.lineageCount n * T.countUnder settings n kind + if kind = .ontology then 1 else 0).sum +
        if kind = .index then 1 else 0 := by
  have hbuilt : T.classes.flatMap (T.builtDocuments settings) =
      (T.builtClasses settings).flatMap (T.builtDocuments settings) :=
    flatMap_eq_flatMap_filter fun n h => builtDocuments_of_fails (by simpa using h)
  have hroot : [T.rootDocument settings].countP (·.kind = kind) =
      if kind = .index then 1 else 0 := by
    cases kind <;> rfl
  unfold DocumentSet.count
  rw [documents_build, List.countP_append, hroot, hbuilt, List.countP_flatMap]
  congr 2
  refine List.map_congr_left fun n hn => countP_builtDocuments ?_
  simpa using (List.mem_filter.1 hn).2

theorem length_builtClasses (T : Taxonomy) (settings : Settings) :
    (T.builtClasses settings).length + (T.build settings).failures.length = T.classes.length := by
  have hfailures : (T.build settings).failures.length =
      (T.classes.filter fun n => Fails (T.classDocuments settings n)).length := by
    rw [← (forall₂_failures_build T settings).length_eq]
    simp only [fails_classDocuments_iff]
  have hsplit := List.length_eq_length_filter_add (l := T.classes)
    fun n => decide (Fails (T.classDocuments settings n))
  unfold builtClasses
  simp only [decide_not]
  rw [hfailures, hsplit, Nat.add_comm]

/-- **A report accounts for every class and document.** -/
theorem report_accounts {T : Taxonomy} {settings : Settings} {tree written : FileTree}
    {out : UnixPath} {print : Json → String} {report : GenerationReport}
    (h : T.generate settings tree out print = (written, .ok report)) :
    report.classCount = T.classes.length ∧
      report.failures = (T.build settings).failures ∧
      report.classCount = report.ontologyCount + report.failures.length ∧
      report.vocabularyCount = ((T.builtClasses settings).map T.lineageCount).sum ∧
      report.identityCount = (((T.builtClasses settings).filter fun n =>
        !settings.excludes T n).map T.lineageCount).sum ∧
      report.definitionCount = report.identityCount ∧
      report.indexCount = 1 +
        (((T.builtClasses settings).filter T.hasChildren).map T.lineageCount).sum ∧
      report.documentsWritten = report.vocabularyCount + report.identityCount +
        report.definitionCount + report.indexCount + report.ontologyCount := by
  obtain ⟨-, rfl⟩ := generate_eq_ok h
  have hcount := count_build T settings
  have hontology : (T.build settings).count .ontology = (T.builtClasses settings).length := by
    rw [hcount]
    simp [countUnder]
  have hidentity : (T.build settings).count .identity = (((T.builtClasses settings).filter fun n =>
      !settings.excludes T n).map T.lineageCount).sum := by
    rw [hcount, ← sum_map_mul_toNat]
    simp [countUnder]
  unfold report reportOf
  dsimp only
  refine ⟨rfl, rfl, ?_, ?_, hidentity, ?_, ?_, (T.build settings).length_eq_sum_count⟩
  · rw [hontology, length_builtClasses]
  · rw [hcount]
    simp [countUnder]
  · rw [hcount, hcount]
    rfl
  · rw [hcount, ← sum_map_mul_toNat, Nat.add_comm 1]
    simp [countUnder]

/-! ## The report on the estate -/

/-- Only the class without a name fails. -/
theorem not_fails_estate_iff {n : Node} (hn : n ∈ estate.classes) :
    ¬ Fails (estate.classDocuments estateSettings n) ↔ n ∈ estateClasses.map Prod.fst := by
  rw [not_fails_iff]
  constructor
  · rintro ⟨documents, hdocuments⟩
    obtain ⟨lineages, bodies, id, hbuilt, -⟩ := classDocuments_eq_ok_iff.1 hdocuments
    exact List.mem_map_of_mem ((built_estate_iff hn).1 ⟨bodies, hbuilt⟩)
  · intro hmem
    obtain ⟨⟨n, lineages, id⟩, hc, rfl⟩ := List.mem_map.1 hmem
    obtain ⟨bodies, hbuilt⟩ := (built_estate_iff hn).2 hc
    exact ⟨_, classDocuments_eq_ok_iff.2 ⟨lineages, bodies, id, hbuilt, rfl⟩⟩

theorem builtClasses_estate :
    estate.builtClasses estateSettings = estateClasses.map Prod.fst := by
  have hnames : estate.builtClasses estateSettings =
      estate.classes.filter fun n => n ∈ estateClasses.map Prod.fst :=
    List.filter_congr fun n hn => decide_eq_decide.2 (not_fails_estate_iff hn)
  rw [hnames, classes_estate]
  decide

theorem sum_lineageCount_estate (p : Node → Bool) :
    (((estate.builtClasses estateSettings).filter p).map estate.lineageCount).sum =
      ((estateClasses.filter fun c => p c.1).map fun c => c.2.1.length).sum := by
  rw [builtClasses_estate, List.filter_map, List.map_map]
  refine congrArg List.sum (List.map_congr_left fun c hc => ?_)
  show estate.lineageCount c.1 = c.2.1.length
  unfold lineageCount
  rw [lineages_estate c (List.mem_filter.1 hc).1]

/-- Of five classes one fails, one is excluded and one has none below it, under two lineages. -/
theorem estate_reported : ∃ written report,
    estate.generate estateSettings FileTree.empty ⟨"out"⟩ Json.pretty = (written, .ok report) ∧
      report.classCount = 5 ∧ report.failures.length = 1 ∧ report.vocabularyCount = 5 ∧
      report.identityCount = 4 ∧ report.definitionCount = 4 ∧ report.indexCount = 4 ∧
      report.ontologyCount = 4 ∧ report.documentsWritten = 21 := by
  have hall : ((estate.builtClasses estateSettings).map estate.lineageCount).sum = 5 := by
    have hsum := sum_lineageCount_estate fun _ => true
    rw [List.filter_true] at hsum
    exact hsum
  have hincluded : (((estate.builtClasses estateSettings).filter fun n =>
      !estateSettings.excludes estate n).map estate.lineageCount).sum = 4 := by
    rw [sum_lineageCount_estate,
      List.filter_congr fun c hc => congrArg (!·) (excludes_estate c hc)]
    decide
  have habove : (((estate.builtClasses estateSettings).filter estate.hasChildren).map
      estate.lineageCount).sum = 3 := by
    rw [sum_lineageCount_estate]
    decide
  have hlength := length_builtClasses estate estateSettings
  rw [builtClasses_estate, classes_estate, List.length_append] at hlength
  obtain ⟨written, report, hrun⟩ :=
    exists_generate Json.pretty isSafe_estate apart_estate room_empty fits_estate
  obtain ⟨hclasses, hfailures, hsplit, hvocabulary, hidentity, hdefinition, hindex, hwritten⟩ :=
    report_accounts hrun
  rw [classes_estate, List.length_append] at hclasses
  rw [← hfailures] at hlength
  rw [hall] at hvocabulary
  rw [hincluded] at hidentity
  rw [habove] at hindex
  have hrows : (estateClasses.map Prod.fst).length = 4 := rfl
  rw [hrows, List.length_singleton] at hclasses hlength
  refine ⟨written, report, hrun, hclasses, ?_⟩
  omega

end Taxonomy

end TaxonomyPress
