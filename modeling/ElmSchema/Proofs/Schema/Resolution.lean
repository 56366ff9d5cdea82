import ElmSchema.Schema.Extraction
import Mathlib.Data.List.Forall2

/-!
# Resolved fields

A list of fields resolves if the type of each of its fields does, and then there is one field
for each node. Otherwise the error is that of the first field with a malformed type. The same
holds for a list of object or input types, with all of their fields in turn.
-/

namespace ElmSchema

open Document (FieldNode)

/-! ### Errors of results -/

section

variable {α β ε : Type}

/-- The error of a result that is none. -/
def error? : Except ε α → Option ε
  | .ok _ => none
  | .error e => some e

theorem map_eq_ok_iff {f : α → β} {x : Except ε α} {b : β} :
  x.map f = .ok b ↔ ∃ a, x = .ok a ∧ f a = b
  := by
  cases x <;> simp [Except.map]

@[simp]
theorem error?_map (f : α → β) (x : Except ε α) :
  error? (x.map f) = error? x
  := by
  cases x <;> rfl

/-- The error of a list of results is that of the first that is none. -/
theorem error?_mapM (f : α → Except ε β) (xs : List α) :
  error? (xs.mapM f) = xs.findSome? fun x => error? (f x)
  := by
  induction xs with
  | nil => rfl
  | cons x xs ih =>
      rw [List.mapM_cons, List.findSome?_cons, ← ih]
      cases f x with
      | error e => rfl
      | ok y => cases xs.mapM f <;> rfl

/-- A list of results is the list of what each gives. -/
theorem mapM_eq_ok_iff {f : α → Except ε β} {xs : List α} {ys : List β} :
  xs.mapM f = .ok ys ↔ List.Forall₂ (fun y x => f x = .ok y) ys xs
  := by
  induction xs generalizing ys with
  | nil => simp [pure, Except.pure, eq_comm]
  | cons x xs ih =>
      rw [List.mapM_cons, List.forall₂_cons_right_iff]
      simp only [← ih]
      cases f x with
      | error e => simp [bind, Except.bind]
      | ok y => cases xs.mapM f <;> simp [bind, Except.bind, pure, Except.pure, eq_comm]

theorem findSome?_flatMap (f : β → Option ε) (g : α → List β) (xs : List α) :
  (xs.flatMap g).findSome? f = xs.findSome? fun x => (g x).findSome? f
  := by
  induction xs with
  | nil => rfl
  | cons x xs ih =>
      rw [List.flatMap_cons, List.findSome?_append, List.findSome?_cons, ih]
      cases (g x).findSome? f <;> rfl

end

/-! ### Fields -/

/-- A field with its type resolved. -/
def Document.FieldNode.resolve (node : FieldNode) : Except MalformedType FieldDef :=
  (FieldType.ofNode node.type).map (⟨node.name, ·⟩)

/-- The fault in the type of a field, if there is one. -/
def Document.FieldNode.fault? (node : FieldNode) : Option MalformedType :=
  error? (FieldType.ofNode node.type)

/-- A field is declared by a node with its name and a node for its type. -/
structure FieldDef.DeclaredBy (f : FieldDef) (node : FieldNode) : Prop where
  name : node.name = f.name
  type : FieldType.ofNode node.type = .ok f.type

theorem resolveFields_eq_mapM (nodes : List FieldNode) :
  resolveFields nodes = nodes.mapM FieldNode.resolve
  := by
  induction nodes with
  | nil => rfl
  | cons node nodes ih =>
      rw [resolveFields, ih, List.mapM_cons, FieldNode.resolve]
      cases FieldType.ofNode node.type <;> rfl

theorem error?_resolveFields (nodes : List FieldNode) :
  error? (resolveFields nodes) = nodes.findSome? FieldNode.fault?
  := by
  rw [resolveFields_eq_mapM, error?_mapM]
  simp only [FieldNode.resolve, error?_map]
  rfl

theorem resolve_eq_ok_iff {node : FieldNode} {f : FieldDef} :
  node.resolve = .ok f ↔ f.DeclaredBy node
  := by
  rw [FieldNode.resolve, map_eq_ok_iff]
  constructor
  · rintro ⟨t, ht, rfl⟩
    use rfl, ht
  · intro h
    use f.type, h.type
    rw [h.name]

theorem resolveFields_eq_ok_iff {nodes : List FieldNode} {fields : List FieldDef} :
  resolveFields nodes = .ok fields ↔ List.Forall₂ FieldDef.DeclaredBy fields nodes
  := by
  rw [resolveFields_eq_mapM, mapM_eq_ok_iff]
  simp only [resolve_eq_ok_iff]

/-! ### Object and input types -/

/-- An object or input type is declared by its name and by nodes for its fields. -/
structure RecordDef.DeclaredBy (r : RecordDef) (part : String × List FieldNode) : Prop where
  name : part.1 = r.name
  fields : List.Forall₂ FieldDef.DeclaredBy r.fields part.2

/-- An object or input type with the types of its fields resolved. -/
def resolveRecord (part : String × List FieldNode) : Except MalformedType RecordDef :=
  (resolveFields part.2).map (⟨part.1, ·⟩)

theorem resolveRecords_eq_mapM (parts : List (String × List FieldNode)) :
  resolveRecords parts = parts.mapM resolveRecord
  := by
  induction parts with
  | nil => rfl
  | cons part parts ih =>
      rw [resolveRecords, ih, List.mapM_cons, resolveRecord]
      cases resolveFields part.2 <;> rfl

theorem error?_resolveRecords (parts : List (String × List FieldNode)) :
  error? (resolveRecords parts) = (parts.flatMap (·.2)).findSome? FieldNode.fault?
  := by
  rw [resolveRecords_eq_mapM, error?_mapM, findSome?_flatMap]
  simp only [resolveRecord, error?_map, error?_resolveFields]

theorem resolveRecord_eq_ok_iff {part : String × List FieldNode} {r : RecordDef} :
  resolveRecord part = .ok r ↔ r.DeclaredBy part
  := by
  rw [resolveRecord, map_eq_ok_iff]
  constructor
  · rintro ⟨fields, hfields, rfl⟩
    use rfl, resolveFields_eq_ok_iff.mp hfields
  · intro h
    use r.fields, resolveFields_eq_ok_iff.mpr h.fields
    rw [h.name]

theorem resolveRecords_eq_ok_iff
    {parts : List (String × List FieldNode)} {records : List RecordDef} :
  resolveRecords parts = .ok records ↔ List.Forall₂ RecordDef.DeclaredBy records parts
  := by
  rw [resolveRecords_eq_mapM, mapM_eq_ok_iff]
  simp only [resolveRecord_eq_ok_iff]

/-! ### Schemas -/

theorem schema_eq_ok_iff {doc : Document} {s : Schema} :
  Document.schema doc = .ok s ↔ Document.enums doc = s.enums ∧
    Document.objects doc = .ok s.objects ∧ Document.inputs doc = .ok s.inputs
  := by
  obtain ⟨enums, objects, inputs⟩ := s
  rw [Document.schema]
  cases Document.objects doc with
  | error e => simp [bind, Except.bind]
  | ok objects' =>
      cases Document.inputs doc with
      | error e => simp [bind, Except.bind]
      | ok inputs' => simp [bind, Except.bind, pure, Except.pure]

theorem error?_schema (doc : Document) :
  error? (Document.schema doc) = (error? (Document.objects doc)).or (error? (Document.inputs doc))
  := by
  rw [Document.schema]
  cases Document.objects doc with
  | error e => rfl
  | ok objects => cases Document.inputs doc <;> rfl

end ElmSchema
