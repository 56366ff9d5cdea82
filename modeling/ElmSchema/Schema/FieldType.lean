import ElmSchema.Schema.Basic
import ElmSchema.Document.Node

/-!
# Types of fields

A type node is reduced to the name at the end of its chain, with two marks: whether there
is a list on the way, and whether the name itself is marked as required. A second list and
anything that is no type are malformed, and the first of them on the way is reported. The
calls that this takes are not counted.
-/

namespace ElmSchema

/-- What makes a type node malformed. -/
inductive MalformedType where
  /-- A list inside a list. -/
  | nestedList (span : Option Document.Span) (inner : Document.TypeNode)
  /-- Something that is no type. -/
  | unexpected (s : Document.Stray)

/-- The node that is at fault. -/
def MalformedType.node : MalformedType → Document.TypeNode
  | .nestedList span inner => .list span inner
  | .unexpected s => .stray s

/-- Why the node is at fault. -/
def MalformedType.reason : MalformedType → String
  | .nestedList _ _ => "nested list types are not supported"
  | .unexpected _ => "unexpected field"

/-- How messages speak of a list node. -/
def describeList : Option Document.Span → String
  | none => "list_type (ListTypeNode)"
  | some span =>
    "list_type (ListTypeNode at " ++ toString span.start ++ ":" ++ toString span.stop ++ ")"

/-- How messages speak of what is no type. -/
def describeStray : Document.Stray → String
  | .name => "name (NameNode)"
  | .intValue => "int_value (IntValueNode)"
  | .variable => "variable (VariableNode)"
  | .value v => v.kindName ++ " (" ++ v.quotedForm ++ ")"
  | .row items => "tuple (" ++ Json.quotedRow items ++ ")"

/-- How messages speak of the node that is at fault. -/
def MalformedType.description : MalformedType → String
  | .nestedList span _ => describeList span
  | .unexpected s => describeStray s

/-- The wording of a malformed type. -/
def MalformedType.message (e : MalformedType) : String :=
  e.reason ++ ": " ++ e.description

namespace FieldType

/-- The type of a field below wrappers, of which one is a list if `isList` holds and the
innermost requires a value if `isRequired` holds. -/
def resolve (isList isRequired : Bool) :
    Document.TypeNode → Except MalformedType FieldType
  | .named name => .ok ⟨name, isRequired, isList⟩
  | .nonNull inner => resolve isList true inner
  | .list span inner =>
    if isList then .error (.nestedList span inner) else resolve true false inner
  | .stray s => .error (.unexpected s)

/-- The type of a field that has the given type node. -/
def ofNode (node : Document.TypeNode) : Except MalformedType FieldType :=
  resolve false false node

end FieldType

end ElmSchema
