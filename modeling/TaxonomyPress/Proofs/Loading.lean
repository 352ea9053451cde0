import TaxonomyPress.Loading
import TaxonomyPress.Proofs.StoreHistory
import TaxonomyPress.Proofs.Traversal

/-!
# A document is loaded as a whole or not at all

* `Statement.Says` : the triple that represents a statement (`toTriple_eq_ok_iff`); `Statement.Faulty` :
  why there is none (`toTriple_eq_error_iff`);
* `FirstFault` : the fault of the first statement that no triple represents; every list of statements
  has one or is represented as a whole (`represented_or_firstFault`);
* `Collector.foldl_add_of_represented`, `foldl_add_of_firstFault` : what a collector holds behind a
  list, since behind a fault it stays as it is (`foldl_add_of_fault`);
* `collect_eq_ok_iff`, `collect_eq_error_iff` : which streams make a store, and why the others do not;
* `whole_graph_or_none` : so no document is loaded in part, whichever reader delivers it.
-/

namespace TaxonomyPress

/-! ## Terms -/

/-- The term of the model for a term of a statement. A literal keeps its language, or else a datatype
that says more than that it is a string. -/
inductive StatementTerm.StandsFor : StatementTerm → Term → Prop
  | iri (i : String) : StandsFor (.term (.iri i)) (.iri i)
  | blank (label : String) : StandsFor (.term (.blank label)) (.blank label)
  | tagged (text tag : String) (datatype : Option String) :
      StandsFor (.term (.literal ⟨text, some tag, datatype⟩)) (.literal ⟨text, some tag, none⟩)
  | typed (text : String) {datatype : String} (h : datatype ∉ stringDatatypes) :
      StandsFor (.term (.literal ⟨text, none, some datatype⟩)) (.literal ⟨text, none, some datatype⟩)
  | string (text : String) {datatype : String} (h : datatype ∈ stringDatatypes) :
      StandsFor (.term (.literal ⟨text, none, some datatype⟩)) (.plain text)
  | plain (text : String) : StandsFor (.term (.literal ⟨text, none, none⟩)) (.plain text)

/-- What stands in the place of a term without being one, by its kind. -/
inductive StatementTerm.Unsupported : StatementTerm → String → Prop
  | quotedTriple : Unsupported .quotedTriple "Triple"
  | queryVariable (name : String) : Unsupported (.queryVariable name) "Variable"

namespace StatementTerm

variable {x : StatementTerm} {t : Term} {i kind : String} {fault : LoadFault}

theorem StandsFor.toTerm_eq (h : x.StandsFor t) : x.toTerm = .ok t := by
  cases h with
  | iri i => rfl
  | blank label => rfl
  | tagged text tag datatype => rfl
  | typed text h => exact congrArg (Except.ok ∘ Term.literal) (if_neg h)
  | string text h => exact congrArg (Except.ok ∘ Term.literal) (if_pos h)
  | plain text => rfl

theorem Unsupported.toTerm_eq (h : x.Unsupported kind) :
    x.toTerm = .error (.unsupportedTerm kind) := by
  cases h with
  | quotedTriple => rfl
  | queryVariable name => rfl

/-- A term of a statement is one of the model or of a kind that there is no term for. -/
theorem standsFor_or_unsupported (x : StatementTerm) :
    (∃ t, x.StandsFor t) ∨ ∃ kind, x.Unsupported kind := by
  match x with
  | .term (.iri i) => exact Or.inl ⟨_, .iri i⟩
  | .term (.blank label) => exact Or.inl ⟨_, .blank label⟩
  | .term (.literal ⟨text, some tag, datatype⟩) => exact Or.inl ⟨_, .tagged text tag datatype⟩
  | .term (.literal ⟨text, none, some datatype⟩) =>
    by_cases h : datatype ∈ stringDatatypes
    · exact Or.inl ⟨_, .string text h⟩
    · exact Or.inl ⟨_, .typed text h⟩
  | .term (.literal ⟨text, none, none⟩) => exact Or.inl ⟨_, .plain text⟩
  | .quotedTriple => exact Or.inr ⟨_, .quotedTriple⟩
  | .queryVariable name => exact Or.inr ⟨_, .queryVariable name⟩

theorem toTerm_eq_ok_iff : x.toTerm = .ok t ↔ x.StandsFor t := by
  refine ⟨fun h => ?_, StandsFor.toTerm_eq⟩
  obtain ⟨u, hu⟩ | ⟨kind, hkind⟩ := x.standsFor_or_unsupported
  · rw [hu.toTerm_eq] at h
    cases h
    exact hu
  · rw [hkind.toTerm_eq] at h
    cases h

theorem toTerm_eq_error_iff :
    x.toTerm = .error fault ↔ ∃ kind, x.Unsupported kind ∧ fault = .unsupportedTerm kind := by
  constructor
  · intro h
    obtain ⟨u, hu⟩ | ⟨kind, hkind⟩ := x.standsFor_or_unsupported
    · rw [hu.toTerm_eq] at h
      cases h
    · rw [hkind.toTerm_eq] at h
      cases h
      exact ⟨kind, hkind, rfl⟩
  · rintro ⟨kind, hkind, rfl⟩
    exact hkind.toTerm_eq

theorem toPredicate_eq_ok_iff : x.toPredicate = .ok i ↔ x = .term (.iri i) := by
  unfold toPredicate
  split
  · simp
  · rename_i hx
    exact iff_of_false nofun (hx i)

theorem toPredicate_eq_error_iff :
    x.toPredicate = .error fault ↔ (∀ i, x ≠ .term (.iri i)) ∧ fault = .predicateNotIri := by
  unfold toPredicate
  split
  · rename_i i
    exact iff_of_false nofun fun h => h.1 i rfl
  · rename_i hx
    constructor
    · intro h
      cases h
      exact ⟨hx, rfl⟩
    · rintro ⟨-, rfl⟩
      rfl

end StatementTerm

/-! ## Statements -/

/-- The triple `t` represents the statement. -/
structure Statement.Says (s : Statement) (t : Triple) : Prop where
  subject : s.subject.StandsFor t.subject
  predicate : s.predicate = .term (.iri t.predicate)
  object : s.object.StandsFor t.object

/-- Why no triple represents the statement: the predicate counts first, and the object last. -/
inductive Statement.Faulty (s : Statement) : LoadFault → Prop
  | predicate (h : ∀ i, s.predicate ≠ .term (.iri i)) : s.Faulty .predicateNotIri
  | subject {i kind : String} (hpredicate : s.predicate = .term (.iri i))
      (hsubject : s.subject.Unsupported kind) : s.Faulty (.unsupportedTerm kind)
  | object {i kind : String} {t : Term} (hpredicate : s.predicate = .term (.iri i))
      (hsubject : s.subject.StandsFor t) (hobject : s.object.Unsupported kind) :
      s.Faulty (.unsupportedTerm kind)

/-- Whether there is a triple for the statement. -/
def Statement.Representable (s : Statement) : Prop := ∃ t, s.Says t

variable {s : Statement} {t : Triple} {fault : LoadFault}

theorem Statement.toTriple_eq_ok_iff : s.toTriple = .ok t ↔ s.Says t := by
  unfold toTriple
  simp only [bind_eq_ok_iff, pure_eq_ok_iff, StatementTerm.toPredicate_eq_ok_iff,
    StatementTerm.toTerm_eq_ok_iff]
  constructor
  · rintro ⟨predicate, hpredicate, subject, hsubject, object, hobject, rfl⟩
    exact ⟨hsubject, hpredicate, hobject⟩
  · rintro ⟨hsubject, hpredicate, hobject⟩
    exact ⟨_, hpredicate, _, hsubject, _, hobject, rfl⟩

theorem Statement.toTriple_eq_error_iff : s.toTriple = .error fault ↔ s.Faulty fault := by
  unfold toTriple
  simp only [bind_eq_error_iff, StatementTerm.toPredicate_eq_error_iff,
    StatementTerm.toPredicate_eq_ok_iff, StatementTerm.toTerm_eq_error_iff,
    StatementTerm.toTerm_eq_ok_iff]
  constructor
  · rintro (⟨hpredicate, rfl⟩ | ⟨i, hpredicate, ⟨kind, hsubject, rfl⟩ | ⟨u, hsubject, h⟩⟩)
    · exact .predicate hpredicate
    · exact .subject hpredicate hsubject
    · obtain ⟨kind, hobject, rfl⟩ | ⟨v, -, h⟩ := h
      · exact .object hpredicate hsubject hobject
      · cases h
  · intro h
    cases h with
    | predicate h => exact Or.inl ⟨h, rfl⟩
    | subject hpredicate hsubject => exact Or.inr ⟨_, hpredicate, Or.inl ⟨_, hsubject, rfl⟩⟩
    | object hpredicate hsubject hobject =>
      exact Or.inr ⟨_, hpredicate, Or.inr ⟨_, hsubject, Or.inl ⟨_, hobject, rfl⟩⟩⟩

/-- A statement is represented by one triple only. -/
theorem Statement.Says.unique : Relator.RightUnique Statement.Says := by
  intro s t u ht hu
  rw [← Statement.toTriple_eq_ok_iff] at ht hu
  exact Except.ok.inj (ht.symm.trans hu)

/-! ## Lists of statements -/

variable {statements : List Statement} {triples : List Triple}

/-- The first statement that no triple represents has `fault`. -/
def FirstFault (statements : List Statement) (fault : LoadFault) : Prop :=
  ∃ before s after, statements = before ++ s :: after ∧ (∀ r ∈ before, r.Representable) ∧
    s.Faulty fault

theorem represented_iff :
    (∃ triples, List.Forall₂ Statement.Says statements triples) ↔
      ∀ s ∈ statements, s.Representable := by
  induction statements with
  | nil => exact iff_of_true ⟨[], .nil⟩ (List.forall_mem_nil _)
  | cons s rest ih =>
    rw [List.forall_mem_cons, ← ih]
    constructor
    · rintro ⟨_, h⟩
      obtain ⟨t, triples, hs, hrest, -⟩ := List.forall₂_cons_left_iff.1 h
      exact ⟨⟨t, hs⟩, triples, hrest⟩
    · rintro ⟨⟨t, hs⟩, triples, hrest⟩
      exact ⟨t :: triples, .cons hs hrest⟩

theorem represented_or_firstFault (statements : List Statement) :
    (∃ triples, List.Forall₂ Statement.Says statements triples) ∨
      ∃ fault, FirstFault statements fault := by
  induction statements with
  | nil => exact Or.inl ⟨[], .nil⟩
  | cons s rest ih =>
    cases hs : s.toTriple with
    | error fault =>
      exact Or.inr ⟨fault, [], s, rest, rfl, List.forall_mem_nil _, Statement.toTriple_eq_error_iff.1 hs⟩
    | ok t =>
      have hsaid : s.Says t := Statement.toTriple_eq_ok_iff.1 hs
      obtain ⟨triples, hrest⟩ | ⟨fault, before, r, after, rfl, hbefore, hr⟩ := ih
      · exact Or.inl ⟨t :: triples, .cons hsaid hrest⟩
      · exact Or.inr ⟨fault, s :: before, r, after, rfl,
          List.forall_mem_cons.2 ⟨⟨t, hsaid⟩, hbefore⟩, hr⟩

/-! ## Collecting -/

namespace Collector

variable {c : Collector} {store : Store}

theorem add_of_fault (h : c.fault = some fault) (s : Statement) : c.add s = c := by
  unfold add
  rw [h]

theorem add_of_represented (h : s.Says t) : add ⟨store, none⟩ s = ⟨store.insert t, none⟩ := by
  unfold add
  rw [Statement.toTriple_eq_ok_iff.2 h]

theorem add_of_faulty (h : s.Faulty fault) : add ⟨store, none⟩ s = ⟨store, some fault⟩ := by
  unfold add
  rw [Statement.toTriple_eq_error_iff.2 h]

theorem foldl_add_of_fault (h : c.fault = some fault) (statements : List Statement) :
    statements.foldl add c = c := by
  induction statements with
  | nil => rfl
  | cons s rest ih => rw [List.foldl_cons, add_of_fault h, ih]

theorem foldl_add_of_represented (h : List.Forall₂ Statement.Says statements triples) :
    statements.foldl add ⟨store, none⟩ = ⟨store.insertAll triples, none⟩ := by
  induction h generalizing store with
  | nil => rfl
  | cons hs _ ih =>
    rw [List.foldl_cons, add_of_represented hs]
    exact ih

/-- The first fault stays, whatever is said behind it. -/
theorem foldl_add_of_firstFault (h : FirstFault statements fault) :
    (statements.foldl add ⟨store, none⟩).fault = some fault := by
  obtain ⟨before, s, after, rfl, hbefore, hs⟩ := h
  obtain ⟨triples, htriples⟩ := represented_iff.2 hbefore
  rw [List.foldl_append, foldl_add_of_represented htriples, List.foldl_cons, add_of_faulty hs,
    foldl_add_of_fault rfl]

theorem finish_of_fault {format : Format} (h : c.fault = some fault) :
    c.finish format = .error ⟨format, fault⟩ := by
  unfold finish
  rw [h]

end Collector

variable {format : Format} {stream : StatementStream} {store : Store} {error : LoadError}

theorem collect_of_syntaxFault {syntaxFault : SyntaxFault} (h : stream.fault = some syntaxFault) :
    collect format stream = .error ⟨format, .syntaxError syntaxFault⟩ := by
  unfold collect
  rw [h]

theorem collect_of_represented (h : stream.fault = none)
    (hsaid : List.Forall₂ Statement.Says stream.statements triples) :
    collect format stream = .ok (.ofList triples) := by
  unfold collect
  rw [h]
  dsimp only
  rw [Collector.foldl_add_of_represented hsaid]
  rfl

theorem collect_of_firstFault (h : stream.fault = none)
    (hfault : FirstFault stream.statements fault) :
    collect format stream = .error ⟨format, fault⟩ := by
  unfold collect
  rw [h]
  exact Collector.finish_of_fault (Collector.foldl_add_of_firstFault hfault)

theorem collect_eq_ok_iff : collect format stream = .ok store ↔ stream.fault = none ∧
    ∃ triples, List.Forall₂ Statement.Says stream.statements triples ∧ .ofList triples = store := by
  constructor
  · intro h
    cases hend : stream.fault with
    | some syntaxFault =>
      rw [collect_of_syntaxFault hend] at h
      cases h
    | none =>
      obtain ⟨triples, hsaid⟩ | ⟨fault, hfault⟩ := represented_or_firstFault stream.statements
      · rw [collect_of_represented hend hsaid] at h
        exact ⟨rfl, triples, hsaid, Except.ok.inj h⟩
      · rw [collect_of_firstFault hend hfault] at h
        cases h
  · rintro ⟨hend, triples, hsaid, rfl⟩
    exact collect_of_represented hend hsaid

theorem collect_eq_error_iff : collect format stream = .error error ↔ error.format = format ∧
    ((∃ syntaxFault, stream.fault = some syntaxFault ∧ error.fault = .syntaxError syntaxFault) ∨
      stream.fault = none ∧ FirstFault stream.statements error.fault) := by
  constructor
  · intro h
    cases hend : stream.fault with
    | some syntaxFault =>
      rw [collect_of_syntaxFault hend] at h
      cases h
      exact ⟨rfl, Or.inl ⟨syntaxFault, rfl, rfl⟩⟩
    | none =>
      obtain ⟨triples, hsaid⟩ | ⟨fault, hfault⟩ := represented_or_firstFault stream.statements
      · rw [collect_of_represented hend hsaid] at h
        cases h
      · rw [collect_of_firstFault hend hfault] at h
        cases h
        exact ⟨rfl, Or.inr ⟨rfl, hfault⟩⟩
  · obtain ⟨format', fault⟩ := error
    rintro ⟨rfl, ⟨syntaxFault, hend, rfl⟩ | ⟨hend, hfault⟩⟩
    · exact collect_of_syntaxFault hend
    · exact collect_of_firstFault hend hfault

theorem exists_collect_eq_ok_iff : (∃ store, collect format stream = .ok store) ↔
    stream.fault = none ∧ ∀ s ∈ stream.statements, s.Representable := by
  rw [← represented_iff]
  simp only [collect_eq_ok_iff]
  constructor
  · rintro ⟨store, hend, triples, hsaid, -⟩
    exact ⟨hend, triples, hsaid⟩
  · rintro ⟨hend, triples, hsaid⟩
    exact ⟨_, hend, triples, hsaid, rfl⟩

/-! ## Loading -/

/-- A document makes a graph just if its reader comes to the end and each of its statements is
represented; the graph then holds their triples in the order in which they are first said, each once.
Otherwise there is an error of the format: the fault that the reader ends at, or else that of the first
statement that no triple represents. -/
theorem whole_graph_or_none (read : Format → String → StatementStream) (format : Format)
    (document : String) :
    ((∃ store, loadWith read format document = .ok store) ↔
      (read format document).fault = none ∧
        ∀ s ∈ (read format document).statements, s.Representable) ∧
    (∀ store, loadWith read format document = .ok store →
      ∃ triples, List.Forall₂ Statement.Says (read format document).statements triples ∧
        store.triples = distinct triples) ∧
    ∀ error, loadWith read format document = .error error ↔ error.format = format ∧
      ((∃ syntaxFault, (read format document).fault = some syntaxFault ∧
          error.fault = .syntaxError syntaxFault) ∨
        (read format document).fault = none ∧
          FirstFault (read format document).statements error.fault) := by
  refine ⟨exists_collect_eq_ok_iff, ?_, fun error => collect_eq_error_iff⟩
  intro store h
  obtain ⟨-, triples, hsaid, rfl⟩ := collect_eq_ok_iff.1 h
  exact ⟨triples, hsaid, Store.triples_ofList triples⟩

/-! ## Documents about a hut -/

/-- That a hut is in a yard, as the graph `graph` says. -/
def insideStatement (graph : Option StatementTerm) : Statement :=
  ⟨.term (.iri "x:hut"), .term (.iri "x:in"), .term (.iri "x:yard"), graph⟩

def calledStatement : Statement :=
  ⟨.term (.iri "x:hut"), .term (.iri "x:is"), .term (.plain "Hut"), none⟩

def quotingStatement : Statement :=
  ⟨.quotedTriple, .term (.iri "x:is"), .term (.plain "Hut"), none⟩

def insideTriple : Triple := ⟨.iri "x:hut", "x:in", .iri "x:yard"⟩

def calledTriple : Triple := ⟨.iri "x:hut", "x:is", .plain "Hut"⟩

/-- A named graph says again what the document says. -/
def linkedDocument : String :=
  "[\x7b\"@id\":\"x:hut\",\"x:in\":\x7b\"@id\":\"x:yard\"\x7d,\"x:is\":\"Hut\"\x7d,"
    ++ "\x7b\"@id\":\"x:g\",\"@graph\":\x7b\"@id\":\"x:hut\",\"x:in\":\x7b\"@id\":\"x:yard\"\x7d\x7d\x7d]"

def quotingDocument : String :=
  "<x:hut> <x:is> \"Hut\" .\n"
    ++ "<< <x:hut> <x:in> <x:yard> >> <x:is> \"Hut\" .\n"
    ++ "<x:hut> <x:in> <x:yard> .\n"

/-- The last statement breaks off. -/
def brokenDocument : String :=
  "<x:hut> <x:is> \"Hut\" .\n"
    ++ "<< <x:hut> <x:in> <x:yard> >> <x:is> \"Hut\" .\n"
    ++ "<x:hut> <x:in>"

/-- Reads as `readStatements` does, and delivers what stands before the fault of the broken document. -/
def streamingReader (format : Format) (document : String) : StatementStream :=
  if format = .turtle ∧ document = brokenDocument then
    { readStatements format document with statements := [calledStatement, quotingStatement] }
  else readStatements format document

theorem insideStatement_represented (graph : Option StatementTerm) :
    (insideStatement graph).Says insideTriple := ⟨.iri _, rfl, .iri _⟩

theorem calledStatement_represented : calledStatement.Says calledTriple :=
  ⟨.iri _, rfl, .plain "Hut"⟩

/-- A fact that two graphs say is there once. A quoted triple is an error, unless the document breaks
off behind it. -/
theorem streamingReader_loads :
    (∃ store, loadWith streamingReader .jsonLd linkedDocument = .ok store ∧
      store.triples = [insideTriple, calledTriple]) ∧
    (∃ error, loadWith streamingReader .nTriples quotingDocument = .error error ∧
      error.message = "failed to parse ntriples input: unsupported term kind Triple") ∧
    ∃ error, loadWith streamingReader .turtle brokenDocument = .error error ∧
      error.message = "failed to parse turtle input" := by
  refine ⟨?linked, ?quoting, ?broken⟩
  case linked =>
    have hread : streamingReader .jsonLd linkedDocument = { statements := [insideStatement none,
        calledStatement, insideStatement (some (.term (.iri "x:g")))] } := by
      have hparse : JsonLd.parse linkedDocument = some [insideStatement none, calledStatement,
          insideStatement (some (.term (.iri "x:g")))] := by decide +kernel
      show StatementStream.ofReading (JsonLd.parse linkedDocument) = _
      rw [hparse]
      rfl
    obtain ⟨hloads, hholds, -⟩ := whole_graph_or_none streamingReader .jsonLd linkedDocument
    rw [hread] at hloads hholds
    have hsaid : List.Forall₂ Statement.Says [insideStatement none, calledStatement,
        insideStatement (some (.term (.iri "x:g")))]
        [insideTriple, calledTriple, insideTriple] :=
      .cons (insideStatement_represented none) (.cons calledStatement_represented
        (.cons (insideStatement_represented _) .nil))
    obtain ⟨store, hstore⟩ := hloads.2 ⟨rfl, represented_iff.1 ⟨_, hsaid⟩⟩
    obtain ⟨triples, htriples, hdistinct⟩ := hholds store hstore
    obtain rfl := Statement.Says.unique.forall₂ htriples hsaid
    exact ⟨store, hstore, hdistinct.trans (by decide)⟩
  case quoting =>
    have hread : streamingReader .nTriples quotingDocument =
        { statements := [calledStatement, quotingStatement, insideStatement none] } := by
      have hparse : NTriples.parse quotingDocument =
          some [calledStatement, quotingStatement, insideStatement none] := by decide +kernel
      show StatementStream.ofReading (NTriples.parse quotingDocument) = _
      rw [hparse]
      rfl
    obtain ⟨-, -, hfails⟩ := whole_graph_or_none streamingReader .nTriples quotingDocument
    rw [hread] at hfails
    refine ⟨⟨.nTriples, .unsupportedTerm "Triple"⟩, (hfails _).2 ⟨rfl, Or.inr ⟨rfl, ?_⟩⟩, rfl⟩
    exact ⟨[calledStatement], quotingStatement, _, rfl,
      List.forall_mem_singleton.2 ⟨_, calledStatement_represented⟩, .subject rfl .quotedTriple⟩
  case broken =>
    have hfault : (streamingReader .turtle brokenDocument).fault = some {} := by
      have hparse : Turtle.parse brokenDocument = none := by decide +kernel
      unfold streamingReader readStatements
      rw [if_pos ⟨rfl, rfl⟩]
      dsimp only
      rw [hparse]
      rfl
    obtain ⟨-, -, hfails⟩ := whole_graph_or_none streamingReader .turtle brokenDocument
    exact ⟨⟨.turtle, .syntaxError {}⟩, (hfails _).2 ⟨rfl, Or.inl ⟨_, hfault, rfl⟩⟩, rfl⟩

end TaxonomyPress
