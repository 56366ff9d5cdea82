import ElmSchema.Event
import ElmSchema.Name.Case
import ElmSchema.Schema.FieldType

/-!
# Schemas of documents

A document is sorted into enums, object types and input types; whatever else it defines is
passed over. Object types are resolved before input types, so a malformed field of an object
type is reported first. Enums that Elm will not accept are kept, with a warning.
-/

namespace ElmSchema

open Document (Definition EnumMember FieldNode)

/-! ### Enums -/

/-- The value that a member of an enum declares. -/
def valueOf? : EnumMember → Option String
  | .value name => some name
  | .bareName _ => none

/-- The enum that a definition declares. -/
def enumOf? : Definition → Option EnumDef
  | .enum name members => some ⟨name, members.filterMap valueOf?⟩
  | _ => none

/-- The enums of a document. -/
def Document.enums (doc : Document) : List EnumDef :=
  doc.filterMap enumOf?

/-- The warnings for values whose constructor is taken. `seen` holds the constructors met
so far, each with the first value that has it. -/
def EnumDef.collisionsFrom (enum : String) (seen : List (String × String)) :
    List String → List Event
  | [] => []
  | value :: rest =>
    let constructor := Name.pascal value
    match seen.lookup constructor with
    | some first =>
      .collision enum first value constructor :: collisionsFrom enum seen rest
    | none => collisionsFrom enum ((constructor, value) :: seen) rest

/-- The warnings for an enum. -/
def EnumDef.warnings (e : EnumDef) : List Event :=
  if e.values.isEmpty then [.emptyEnum e.name] else collisionsFrom e.name [] e.values

/-! ### Object and input types -/

/-- The name and the fields of an object definition. -/
def objectOf? : Definition → Option (String × List FieldNode)
  | .object name fields => some (name, fields)
  | _ => none

/-- The name and the fields of an input definition. -/
def inputOf? : Definition → Option (String × List FieldNode)
  | .input name fields => some (name, fields)
  | _ => none

/-- Fields with their types resolved. -/
def resolveFields : List FieldNode → Except MalformedType (List FieldDef)
  | [] => .ok []
  | node :: rest => do
    let type ← FieldType.ofNode node.type
    let fields ← resolveFields rest
    return ⟨node.name, type⟩ :: fields

/-- Object or input types with the types of their fields resolved. -/
def resolveRecords : List (String × List FieldNode) → Except MalformedType (List RecordDef)
  | [] => .ok []
  | (name, nodes) :: rest => do
    let fields ← resolveFields nodes
    let records ← resolveRecords rest
    return ⟨name, fields⟩ :: records

/-- The object types of a document. -/
def Document.objects (doc : Document) : Except MalformedType (List RecordDef) :=
  resolveRecords (doc.filterMap objectOf?)

/-- The input types of a document. -/
def Document.inputs (doc : Document) : Except MalformedType (List RecordDef) :=
  resolveRecords (doc.filterMap inputOf?)

/-! ### Schemas -/

/-- The schema of a document. -/
def Document.schema (doc : Document) : Except MalformedType Schema := do
  let objects ← Document.objects doc
  let inputs ← Document.inputs doc
  return ⟨Document.enums doc, objects, inputs⟩

/-- The number of definitions that a schema has nothing of. -/
def Document.unsupportedCount (doc : Document) (s : Schema) : Nat :=
  doc.length - s.enums.length - s.objects.length - s.inputs.length

/-- The warnings for the enums of a document. -/
def Document.enumWarnings (doc : Document) : List Event :=
  (Document.enums doc).flatMap EnumDef.warnings

/-- The schema of a document, with the events on the way to it. -/
def Document.analyze (moduleName : String) (doc : Document) :
    List Event × Except MalformedType Schema :=
  let before := .parsed doc.length moduleName :: Document.enumWarnings doc
  match Document.schema doc with
  | .error e => (before, .error e)
  | .ok s =>
    let count := Document.unsupportedCount doc s
    let passed := if count = 0 then [] else [.skipped count]
    (before ++ passed ++ [.extracted s.enums.length s.objects.length s.inputs.length], .ok s)

end ElmSchema
