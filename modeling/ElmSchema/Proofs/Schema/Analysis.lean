import ElmSchema.Generation
import ElmSchema.Proofs.Schema.Resolution
import Mathlib.Logic.Relation

/-!
# The analysis of documents

The analysis of a document fails if a field of an object or input type is malformed. The object
types come first, wherever they stand in the document, so the fault that is reported is the
first one among their fields, and one among the fields of the input types only if there is
none. Interfaces and extensions have fields too, and their faults are never met.

The outcome depends only on the enums, the object types and the input types, each kind in the
order of the document: it stays the same when other definitions come and go and when
definitions of different kinds change places.
-/

namespace ElmSchema

open Document (Definition FieldNode)

/-! ### Kinds of definitions -/

/-- The kinds of definitions. -/
inductive Kind where
  | enum
  | object
  | input
  | unsupported
deriving DecidableEq, Repr

/-- The kind of a definition. -/
def Document.Definition.kind : Definition → Kind
  | .enum _ _ => .enum
  | .object _ _ => .object
  | .input _ _ => .input
  | .unsupported _ => .unsupported

/-- The fields of a definition. -/
def Document.Definition.fields : Definition → List FieldNode
  | .enum _ _ => []
  | .object _ fields => fields
  | .input _ fields => fields
  | .unsupported fields => fields

/-- The fields of the definitions of a kind, in the order of the document. -/
def Document.fieldsOf (doc : Document) (kind : Kind) : List FieldNode :=
  (doc.filter (·.kind = kind)).flatMap Definition.fields

/-- The number of definitions that are neither enums nor object nor input types. -/
def Document.countUnsupported (doc : Document) : Nat :=
  doc.countP (·.kind = .unsupported)

theorem enumOf?_eq_none {d : Definition} (h : d.kind ≠ .enum) :
  enumOf? d = none
  := by
  cases d with
  | enum name members => exact absurd rfl h
  | _ => rfl

theorem objectOf?_eq_none {d : Definition} (h : d.kind ≠ .object) :
  objectOf? d = none
  := by
  cases d with
  | object name fields => exact absurd rfl h
  | _ => rfl

theorem inputOf?_eq_none {d : Definition} (h : d.kind ≠ .input) :
  inputOf? d = none
  := by
  cases d with
  | input name fields => exact absurd rfl h
  | _ => rfl

/-- The parts that the definitions of one kind have hold the fields of this kind. -/
theorem flatMap_filterMap_parts
    {part? : Definition → Option (String × List FieldNode)} {kind : Kind}
    (hnone : ∀ d, d.kind ≠ kind → part? d = none)
    (hsome : ∀ d, d.kind = kind → ∃ name, part? d = some (name, d.fields)) (doc : Document) :
  (doc.filterMap part?).flatMap (·.2) = Document.fieldsOf doc kind
  := by
  rw [Document.fieldsOf]
  induction doc with
  | nil => rfl
  | cons d doc ih =>
      by_cases hkind : d.kind = kind
      · obtain ⟨name, hpart⟩ := hsome d hkind
        rw [List.filterMap_cons_some hpart, List.filter_cons_of_pos (by simpa using hkind),
          List.flatMap_cons, List.flatMap_cons, ih]
      · rw [List.filterMap_cons_none (hnone d hkind),
          List.filter_cons_of_neg (by simpa using hkind), ih]

theorem error?_objects (doc : Document) :
  error? (Document.objects doc) = (Document.fieldsOf doc .object).findSome? FieldNode.fault?
  := by
  rw [Document.objects, error?_resolveRecords, flatMap_filterMap_parts fun _ => objectOf?_eq_none]
  intro d hd
  cases d with
  | object name fields => use name; rfl
  | _ => simp [Definition.kind] at hd

theorem error?_inputs (doc : Document) :
  error? (Document.inputs doc) = (Document.fieldsOf doc .input).findSome? FieldNode.fault?
  := by
  rw [Document.inputs, error?_resolveRecords, flatMap_filterMap_parts fun _ => inputOf?_eq_none]
  intro d hd
  cases d with
  | input name fields => use name; rfl
  | _ => simp [Definition.kind] at hd

theorem exists_fault_iff {nodes : List FieldNode} :
  (∃ fault, nodes.findSome? FieldNode.fault? = some fault) ↔ ∃ node ∈ nodes, node.fault? ≠ none
  := by
  rw [← Option.isSome_iff_exists, List.findSome?_isSome_iff]
  simp only [Option.isSome_iff_ne_none]

/-- The fields of the object types are resolved before those of the input types. -/
theorem error?_schema_eq_findSome? (doc : Document) :
  error? (Document.schema doc)
    = (Document.fieldsOf doc .object ++ Document.fieldsOf doc .input).findSome? FieldNode.fault?
  := by
  rw [error?_schema, error?_objects, error?_inputs, List.findSome?_append]

/-- Each definition is an enum, an object type, an input type or unsupported. -/
theorem length_eq_add_kinds (doc : Document) :
  (Document.enums doc).length + (doc.filterMap objectOf?).length +
    (doc.filterMap inputOf?).length + Document.countUnsupported doc = doc.length
  := by
  induction doc with
  | nil => rfl
  | cons d doc ih =>
      rw [Document.enums, Document.countUnsupported] at ih ⊢
      rw [List.countP_cons, List.length_cons, ← ih]
      cases d
      all_goals
        simp [List.filterMap_cons, enumOf?, objectOf?, inputOf?, Definition.kind]
        omega

/-! ### Rearranging -/

/-- One document is another with an unsupported definition put in somewhere, or with two
neighbours of different kinds in the other order. -/
inductive Rearranged : Document → Document → Prop where
  | insert (before after : Document) (fields : List FieldNode) :
      Rearranged (before ++ after) (before ++ .unsupported fields :: after)
  | swap (before after : Document) (d d' : Definition) :
      d.kind ≠ d'.kind → Rearranged (before ++ d :: d' :: after) (before ++ d' :: d :: after)

/-- The parts of one supported kind and their order stay the same. -/
theorem Rearranged.filterMap_eq
    {α : Type} {part? : Definition → Option α} {kind : Kind} (hkind : kind ≠ .unsupported)
    (hnone : ∀ d, d.kind ≠ kind → part? d = none)
    {doc doc' : Document} (h : Rearranged doc doc') :
  doc.filterMap part? = doc'.filterMap part?
  := by
  cases h with
  | insert before after fields =>
      have hpart : part? (.unsupported fields) = none := hnone _ hkind.symm
      rw [List.filterMap_append, List.filterMap_append, List.filterMap_cons_none hpart]
  | swap before after d d' hne =>
      -- At most one of the two neighbours is of the kind.
      rw [List.filterMap_append, List.filterMap_append]
      congr 1
      by_cases hd : d.kind = kind
      · have hpart : part? d' = none := hnone d' fun hd' => hne (hd.trans hd'.symm)
        simp only [List.filterMap_cons, hpart]
      · have hpart : part? d = none := hnone d hd
        simp only [List.filterMap_cons, hpart]

theorem schema_eq_of_rearranged
    {doc doc' : Document} (h : Relation.EqvGen Rearranged doc doc') :
  Document.schema doc = Document.schema doc'
  := by
  induction h with
  | rel doc doc' h =>
      have henums : Document.enums doc = Document.enums doc' :=
        h.filterMap_eq (by decide) fun _ => enumOf?_eq_none
      have hobjects : doc.filterMap objectOf? = doc'.filterMap objectOf? :=
        h.filterMap_eq (by decide) fun _ => objectOf?_eq_none
      have hinputs : doc.filterMap inputOf? = doc'.filterMap inputOf? :=
        h.filterMap_eq (by decide) fun _ => inputOf?_eq_none
      rw [Document.schema, Document.schema, Document.objects, Document.objects, Document.inputs,
        Document.inputs, henums, hobjects, hinputs]
  | refl doc => rfl
  | symm _ _ _ ih => exact ih.symm
  | trans _ _ _ _ _ ih ih' => exact ih.trans ih'

/-! ### Outcomes and events -/

/-- What the analysis of a document reports in any case. -/
def Document.openingEvents (doc : Document) (moduleName : String) : List Event :=
  .parsed doc.length moduleName :: Document.enumWarnings doc

/-- What the analysis of a document reports once it has a schema. -/
def Document.closingEvents (doc : Document) (s : Schema) : List Event :=
  (if Document.countUnsupported doc = 0 then [] else [.skipped (Document.countUnsupported doc)]) ++
    [.extracted s.enums.length s.objects.length s.inputs.length]

/-- A schema is declared by the enums, the object types and the input types of a document. -/
structure Schema.DeclaredBy (s : Schema) (doc : Document) : Prop where
  enums : Document.enums doc = s.enums
  objects : List.Forall₂ RecordDef.DeclaredBy s.objects (doc.filterMap objectOf?)
  inputs : List.Forall₂ RecordDef.DeclaredBy s.inputs (doc.filterMap inputOf?)

theorem Schema.DeclaredBy.length_add
    {s : Schema} {doc : Document} (h : s.DeclaredBy doc) :
  s.enums.length + s.objects.length + s.inputs.length + Document.countUnsupported doc = doc.length
  := by
  rw [← h.enums, h.objects.length_eq, h.inputs.length_eq]
  apply length_eq_add_kinds

theorem declaredBy_of_schema {doc : Document} {s : Schema} (h : Document.schema doc = .ok s) :
  s.DeclaredBy doc
  := by
  obtain ⟨henums, hobjects, hinputs⟩ := schema_eq_ok_iff.mp h
  use henums, resolveRecords_eq_ok_iff.mp hobjects, resolveRecords_eq_ok_iff.mp hinputs

theorem unsupportedCount_eq {doc : Document} {s : Schema} (h : s.DeclaredBy doc) :
  Document.unsupportedCount doc s = Document.countUnsupported doc
  := by
  rw [Document.unsupportedCount, ← h.length_add]
  omega

section Sources

variable {source : Source} {calls : Nat} {doc : Document} {moduleName : String}
variable (hread : source.read (calls + 1) = .ok doc)
include hread

theorem analyze_of_schema_error {e : MalformedType} (h : Document.schema doc = .error e) :
  source.analyze calls moduleName
    = (Document.openingEvents doc moduleName, .error (.malformed e))
  := by
  rw [Source.analyze, hread]
  simp only [Document.analyze, h]
  rfl

theorem analyze_of_schema_ok {s : Schema} (h : Document.schema doc = .ok s) :
  source.analyze calls moduleName
    = (Document.openingEvents doc moduleName ++ Document.closingEvents doc s, .ok s)
  := by
  rw [Source.analyze, hread, Document.closingEvents, ← unsupportedCount_eq (declaredBy_of_schema h),
    ← List.append_assoc]
  simp only [Document.analyze, h]
  rfl

/-- The outcome is the schema of the document. -/
theorem snd_analyze :
  (source.analyze calls moduleName).2 = (Document.schema doc).mapError .malformed
  := by
  cases h : Document.schema doc with
  | error e => rw [analyze_of_schema_error hread h, Except.mapError]
  | ok s => rw [analyze_of_schema_ok hread h, Except.mapError]

theorem snd_analyze_eq_error_iff {e : GenerationError} :
  (source.analyze calls moduleName).2 = .error e ↔ ∃ fault, e = .malformed fault ∧
    (Document.fieldsOf doc .object ++ Document.fieldsOf doc .input).findSome? FieldNode.fault?
      = some fault
  := by
  rw [snd_analyze hread, ← error?_schema_eq_findSome?]
  cases Document.schema doc with
  | error fault => simp [Except.mapError, error?, eq_comm]
  | ok s => simp [Except.mapError, error?]

end Sources

/-- A module is generated from a document that has a schema, and from no other. -/
theorem generate_eq_ok_iff
    {source : Source} {calls : Nat} {doc : Document} {moduleName : String} {extras : Extras}
    (hread : source.read (calls + 2) = .ok doc) {events : List Event} {text : String} :
  source.generate calls moduleName extras = (events, .ok text) ↔ ∃ s,
    Document.schema doc = .ok s ∧ (s.toModule moduleName extras).render = text ∧
      Document.openingEvents doc moduleName ++ Document.closingEvents doc s = events
  := by
  rw [Source.generate]
  cases h : Document.schema doc with
  | error e => simp [analyze_of_schema_error hread h]
  | ok s => simp [analyze_of_schema_ok hread h, and_comm]

/-- The analysis of a document. It fails if and only if a field of an object or input type is
malformed, with the first fault among the fields of the object types, or, if there is none,
among those of the input types; then it has reported the warnings for the enums, and no module
is generated, with or without input types. Otherwise it reports in the end how many definitions
were passed over, if any, and how many of each kind there are. The outcome stays the same when
the document is rearranged. -/
theorem analysis_outcome
    {source : Source} {calls : Nat} {doc : Document} {moduleName : String}
    {events : List Event} {outcome : Except GenerationError Schema}
    (hread : source.read (calls + 1) = .ok doc)
    (hrun : source.analyze calls moduleName = (events, outcome)) :
  ((∃ e, outcome = .error e) ↔
    ∃ node ∈ Document.fieldsOf doc .object ++ Document.fieldsOf doc .input,
      node.fault? ≠ none) ∧
  (∀ e, outcome = .error e ↔ ∃ fault, e = .malformed fault ∧
    ((Document.fieldsOf doc .object).findSome? FieldNode.fault? = some fault ∨
      (∀ node ∈ Document.fieldsOf doc .object, node.fault? = none) ∧
        (Document.fieldsOf doc .input).findSome? FieldNode.fault? = some fault)) ∧
  (∀ e, outcome = .error e → events = Document.openingEvents doc moduleName ∧
    ∀ outer extras, calls = outer + 1 →
      source.generate outer moduleName extras = (events, .error e)) ∧
  (∀ s, outcome = .ok s → s.DeclaredBy doc ∧
    events = Document.openingEvents doc moduleName ++ Document.closingEvents doc s ∧
    s.enums.length + s.objects.length + s.inputs.length + Document.countUnsupported doc
      = doc.length) ∧
  ∀ {source' : Source} {calls' : Nat} {doc' : Document} (moduleName' : String),
    source'.read (calls' + 1) = .ok doc' → Relation.EqvGen Rearranged doc doc' →
      (source'.analyze calls' moduleName').2 = outcome
  := by
  have herror : ∀ {e}, outcome = .error e ↔ ∃ fault, e = .malformed fault ∧
      (Document.fieldsOf doc .object ++ Document.fieldsOf doc .input).findSome? FieldNode.fault?
        = some fault := by
    intro e
    rw [← snd_analyze_eq_error_iff hread, hrun]
  refine ⟨?_, ?_, ?_, ?_, ?_⟩
  · rw [← exists_fault_iff]
    constructor
    · rintro ⟨e, he⟩
      obtain ⟨fault, -, hfault⟩ := herror.mp he
      use fault, hfault
    · rintro ⟨fault, hfault⟩
      use .malformed fault, herror.mpr ⟨fault, rfl, hfault⟩
  · intro e
    rw [herror]
    simp only [List.findSome?_append, Option.or_eq_some_iff, List.findSome?_eq_none_iff]
  · rintro e rfl
    cases hschema : Document.schema doc with
    | ok s => simp [analyze_of_schema_ok hread hschema] at hrun
    | error fault =>
        rw [analyze_of_schema_error hread hschema, Prod.mk.injEq, Except.error.injEq] at hrun
        obtain ⟨rfl, rfl⟩ := hrun
        use rfl
        rintro outer extras rfl
        rw [Source.generate, analyze_of_schema_error hread hschema]
  · rintro s rfl
    cases hschema : Document.schema doc with
    | error fault => simp [analyze_of_schema_error hread hschema] at hrun
    | ok s' =>
        rw [analyze_of_schema_ok hread hschema, Prod.mk.injEq, Except.ok.injEq] at hrun
        obtain ⟨hevents, rfl⟩ := hrun
        have hs := declaredBy_of_schema hschema
        use hs, hevents.symm, hs.length_add
  · intro source' calls' doc' moduleName' hread' h
    rw [snd_analyze hread', ← schema_eq_of_rearranged h, ← snd_analyze hread, hrun]

/-- A document with a fault in an interface, then in an input type, and then in two object
types. -/
def faultyDocument : Document :=
  [.unsupported [⟨"a", .stray .variable⟩],
    .input "Filter" [⟨"b", .stray .intValue⟩],
    .enum "Color" [],
    .object "User" [⟨"c", .named "Int"⟩, ⟨"d", .list none (.list none (.named "Int"))⟩],
    .object "Team" [⟨"e", .stray .name⟩]]

/-- The fault that is reported is that of the first object type. -/
theorem analysis_outcome_faulty :
  (Source.document faultyDocument).read 1 = .ok faultyDocument ∧
  (Source.document faultyDocument).analyze 0 "M"
    = ([.parsed 5 "M", .emptyEnum "Color"],
      .error (.malformed (.nestedList none (.named "Int"))))
  := by
  obtain ⟨-, herror, hfail, -, -⟩ :=
    @analysis_outcome (.document faultyDocument) 0 faultyDocument "M" _ _ rfl rfl
  have houtcome := (herror _).mpr ⟨.nestedList none (.named "Int"), rfl, .inl rfl⟩
  exact ⟨rfl, Prod.ext (hfail _ houtcome).1 houtcome⟩

end ElmSchema
