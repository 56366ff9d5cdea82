import ElmSchema.Generation
import ElmSchema.Proofs.Document.Naming
import ElmSchema.Proofs.Schema.Resolution

/-!
# Names of a schema

The names in a schema are those of its enums and their values, of its records and their
fields, and of the types of the fields. The schema of a document that was read from a text has
names of the language only.
-/

namespace ElmSchema

open Document (isName FieldNode EnumMember TypeNode Definition)

/-! ### Names -/

/-- The names in a field: its own, and that of its type. -/
def FieldDef.names (f : FieldDef) : List String :=
  [f.name, f.type.typeName]

/-- The names in an enum. -/
def EnumDef.names (e : EnumDef) : List String :=
  e.name :: e.values

/-- The names in an object or input type. -/
def RecordDef.names (r : RecordDef) : List String :=
  r.name :: r.fields.flatMap FieldDef.names

/-- The names in a schema. -/
def Schema.names (s : Schema) : List String :=
  s.enums.flatMap EnumDef.names ++ s.objects.flatMap RecordDef.names ++
    s.inputs.flatMap RecordDef.names

section

variable {P : String → Prop}

theorem EnumDef.forall_names_iff {e : EnumDef} :
  (∀ n ∈ e.names, P n) ↔ P e.name ∧ ∀ v ∈ e.values, P v
  := by
  rw [names, List.forall_mem_cons]

theorem RecordDef.forall_names_iff {r : RecordDef} :
  (∀ n ∈ r.names, P n) ↔ P r.name ∧ ∀ f ∈ r.fields, P f.name ∧ P f.type.typeName
  := by
  simp [names, FieldDef.names, List.mem_flatMap]
  grind

theorem Schema.forall_names_iff {s : Schema} :
  (∀ n ∈ s.names, P n) ↔ (∀ e ∈ s.enums, ∀ n ∈ e.names, P n) ∧
    (∀ r ∈ s.objects, ∀ n ∈ r.names, P n) ∧ ∀ r ∈ s.inputs, ∀ n ∈ r.names, P n
  := by
  simp only [names, List.forall_mem_append, List.mem_flatMap, and_assoc]
  grind

end

/-! ### From documents to schemas -/

/-- The type of a field keeps the name at the end of the type node. -/
theorem FieldType.isName_of_resolve :
  ∀ (node : TypeNode) {isList isRequired : Bool} {t : FieldType}, node.isNamed →
    resolve isList isRequired node = .ok t → isName t.typeName
  | .named name, _, _, t, hnode, h => by
      obtain rfl := Except.ok.inj h
      exact hnode
  | .nonNull inner, _, _, t, hnode, h => isName_of_resolve inner hnode h
  | .list _ inner, false, _, t, hnode, h => isName_of_resolve inner hnode h
  | .list _ inner, true, _, t, hnode, h => by simp [resolve] at h
  | .stray _, _, _, t, hnode, h => by simp [resolve] at h

theorem FieldDef.DeclaredBy.isName
    {f : FieldDef} {node : FieldNode} (h : f.DeclaredBy node) (hnode : node.isNamed) :
  isName f.name ∧ isName f.type.typeName
  := by
  rw [FieldNode.isNamed, Bool.and_eq_true] at hnode
  rw [← h.name]
  use hnode.1, FieldType.isName_of_resolve node.type hnode.2 h.type

theorem isName_of_forall₂
    {nodes : List FieldNode} {fields : List FieldDef}
    (h : List.Forall₂ FieldDef.DeclaredBy fields nodes) (hnodes : ∀ node ∈ nodes, node.isNamed) :
  ∀ f ∈ fields, isName f.name ∧ isName f.type.typeName
  := by
  induction h with
  | nil => simp
  | cons hf _ ih =>
      rw [List.forall_mem_cons] at hnodes ⊢
      use hf.isName hnodes.1, ih hnodes.2

theorem isName_of_resolveRecords
    {parts : List (String × List FieldNode)} {records : List RecordDef}
    (hparts : ∀ part ∈ parts, isName part.1 ∧ ∀ node ∈ part.2, node.isNamed)
    (h : resolveRecords parts = .ok records) :
  ∀ r ∈ records, ∀ n ∈ r.names, isName n
  := by
  rw [resolveRecords_eq_ok_iff] at h
  induction h with
  | nil => simp
  | cons hr _ ih =>
      rw [List.forall_mem_cons] at hparts ⊢
      obtain ⟨⟨hname, hnodes⟩, hparts⟩ := hparts
      refine ⟨RecordDef.forall_names_iff.mpr ⟨?_, isName_of_forall₂ hr.fields hnodes⟩, ih hparts⟩
      rwa [← hr.name]

section Documents

variable {doc : Document} (hdoc : ∀ d ∈ doc, d.isNamed)
include hdoc

theorem isName_enums :
  ∀ e ∈ Document.enums doc, ∀ n ∈ e.names, isName n
  := by
  intro e he
  obtain ⟨d, hd, hof⟩ := List.mem_filterMap.mp he
  cases d with
  | enum name members =>
      obtain rfl : ⟨name, members.filterMap valueOf?⟩ = e := by simpa [enumOf?] using hof
      have hnamed := hdoc _ hd
      simp only [Definition.isNamed, Bool.and_eq_true, List.all_eq_true] at hnamed
      rw [EnumDef.forall_names_iff]
      use hnamed.1
      intro v hv
      obtain ⟨member, hmember, hof⟩ := List.mem_filterMap.mp hv
      cases member with
      | value name =>
          obtain rfl : name = v := by simpa [valueOf?] using hof
          apply hnamed.2 _ hmember
      | bareName name => simp [valueOf?] at hof
  | _ => simp [enumOf?] at hof

/-- Definitions of one kind have named parts. -/
theorem isNamed_parts
    {part? : Definition → Option (String × List FieldNode)}
    (hpart : ∀ d part, part? d = some part → d = .object part.1 part.2 ∨ d = .input part.1 part.2) :
  ∀ part ∈ doc.filterMap part?, isName part.1 ∧ ∀ node ∈ part.2, node.isNamed
  := by
  intro part hmem
  obtain ⟨d, hd, hof⟩ := List.mem_filterMap.mp hmem
  have hnamed := hdoc d hd
  rcases hpart d part hof with rfl | rfl
  · simpa [Definition.isNamed] using hnamed
  · simpa [Definition.isNamed] using hnamed

/-- The schema of a document with names has names only. -/
theorem isName_of_schema {s : Schema} (h : Document.schema doc = .ok s) :
  ∀ n ∈ s.names, isName n
  := by
  obtain ⟨henums, hobjects, hinputs⟩ := schema_eq_ok_iff.mp h
  rw [Schema.forall_names_iff, ← henums]
  refine ⟨isName_enums hdoc, ?_, ?_⟩
  · apply isName_of_resolveRecords (isNamed_parts hdoc _) hobjects
    intro d part hof
    cases d <;> simp [objectOf?] at hof
    left
    rw [← hof]
  · apply isName_of_resolveRecords (isNamed_parts hdoc _) hinputs
    intro d part hof
    cases d <;> simp [inputOf?] at hof
    right
    rw [← hof]

end Documents

/-- The schema that the analysis of a text gives has names of the language only. -/
theorem isName_of_analyze
    {calls : Nat} {moduleName text : String} {events : List Event} {s : Schema}
    (h : (Source.text text).analyze calls moduleName = (events, .ok s)) :
  ∀ n ∈ s.names, isName n
  := by
  rw [Source.analyze] at h
  split at h
  · simp at h
  · rename_i doc hread
    have hdoc := Document.isNamed_of_read hread
    simp only [Document.analyze] at h
    cases hschema : Document.schema doc with
    | error e => simp [hschema] at h
    | ok s' =>
        obtain ⟨-, rfl⟩ : _ ∧ s' = s := by simpa [hschema] using h
        apply isName_of_schema hdoc hschema

end ElmSchema
