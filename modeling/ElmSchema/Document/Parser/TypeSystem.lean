import ElmSchema.Document.Parser.Operation

/-!
# Type definitions

The definitions of a type system and their extensions. Enum, object and input definitions
are kept with their names and members, all others are checked and dropped.
-/

namespace ElmSchema.Document.Parser

/-! ### Parts of definitions -/

/-- A description, if there is one. -/
def description : Parser Unit := rule do
  if (← current).lexeme.isString then advance

/-- The interfaces that a type implements. -/
def implementedInterfaces : Parser (List String) := rule do
  if ← acceptKeyword "implements" then delimitedMany .amp typeName else return []

/-- An argument of a field or directive definition, or a field of an input type. -/
def inputValue : Parser FieldNode := rule do
  description
  let v ← name
  let _ ← expect .colon
  let type ← typeReference
  defaultValue
  let _ ← constDirectives
  return ⟨v, type⟩

/-- The arguments in a field or directive definition, if there are any. -/
def argumentDefinitions : Parser Unit := rule do
  let _ ← optionalMany .parenL inputValue .parenR

/-- A field of an object or interface type. -/
def fieldDefinition : Parser FieldNode := rule do
  description
  let v ← name
  argumentDefinitions
  let _ ← expect .colon
  let type ← typeReference
  let _ ← constDirectives
  return ⟨v, type⟩

/-- The fields of an object or interface type, if there are any. -/
def fieldDefinitions : Parser (List FieldNode) :=
  rule (optionalMany .braceL fieldDefinition .braceR)

/-- The fields of an input type, if there are any. -/
def inputFields : Parser (List FieldNode) :=
  rule (optionalMany .braceL inputValue .braceR)

/-- The name of an enum value. The names of constants are reserved. -/
def enumValueName : Parser String := rule do
  let t ← current
  let v := t.lexeme.value?
  if v == some "true" || v == some "false" || v == some "null" then
    fail t.start (.reservedEnumValue t.lexeme)
  else name

/-- A value of an enum. -/
def enumValue : Parser EnumMember := rule do
  description
  let v ← enumValueName
  let _ ← constDirectives
  return .value v

/-- The values of an enum, if there are any. -/
def enumValues : Parser (List EnumMember) :=
  rule (optionalMany .braceL enumValue .braceR)

/-- The members of a union, if there are any. -/
def unionMembers : Parser (List String) := rule do
  if ← accept .equals then delimitedMany .pipe typeName else return []

/-- The type of the operations of one kind. -/
def rootOperation : Parser Unit := rule do
  operationType
  let _ ← expect .colon
  let _ ← typeName

/-- The places where a directive may stand. -/
def directiveLocations : List String :=
  ["QUERY", "MUTATION", "SUBSCRIPTION", "FIELD", "FRAGMENT_DEFINITION", "FRAGMENT_SPREAD",
    "VARIABLE_DEFINITION", "INLINE_FRAGMENT", "SCHEMA", "SCALAR", "OBJECT",
    "FIELD_DEFINITION", "ARGUMENT_DEFINITION", "INTERFACE", "UNION", "ENUM", "ENUM_VALUE",
    "INPUT_OBJECT", "INPUT_FIELD_DEFINITION"]

/-- A place where a directive may stand. -/
def directiveLocation : Parser Unit := rule do
  let t ← current
  let v ← name
  if directiveLocations.contains v then pure () else unexpected t

/-- The places where a directive may stand, as its definition lists them. -/
def directivePlaces : Parser Unit := rule do
  let _ ← delimitedMany .pipe directiveLocation

/-! ### Definitions -/

/-- The definition of the root operations. -/
def schemaDefinition : Parser Definition := rule do
  description
  keyword "schema"
  let _ ← constDirectives
  let _ ← many .braceL rootOperation .braceR
  return .unsupported

/-- The definition of a scalar type. -/
def scalarDefinition : Parser Definition := rule do
  description
  keyword "scalar"
  let _ ← name
  let _ ← constDirectives
  return .unsupported

/-- The definition of an object type. -/
def objectDefinition : Parser Definition := rule do
  description
  keyword "type"
  let v ← name
  let _ ← implementedInterfaces
  let _ ← constDirectives
  let fields ← fieldDefinitions
  return .object v fields

/-- The definition of an interface. -/
def interfaceDefinition : Parser Definition := rule do
  description
  keyword "interface"
  let _ ← name
  let _ ← implementedInterfaces
  let _ ← constDirectives
  let fields ← fieldDefinitions
  return .unsupported fields

/-- The definition of a union. -/
def unionDefinition : Parser Definition := rule do
  description
  keyword "union"
  let _ ← name
  let _ ← constDirectives
  let _ ← unionMembers
  return .unsupported

/-- The definition of an enum. -/
def enumDefinition : Parser Definition := rule do
  description
  keyword "enum"
  let v ← name
  let _ ← constDirectives
  let members ← enumValues
  return .enum v members

/-- The definition of an input type. -/
def inputDefinition : Parser Definition := rule do
  description
  keyword "input"
  let v ← name
  let _ ← constDirectives
  let fields ← inputFields
  return .input v fields

/-- The definition of a directive. -/
def directiveDefinition : Parser Definition := rule do
  description
  keyword "directive"
  let _ ← expect .at
  let _ ← name
  argumentDefinitions
  let _ ← acceptKeyword "repeatable"
  keyword "on"
  directivePlaces
  return .unsupported

/-- The definition that starts with a keyword. -/
def definitionOf? : String → Option (Parser Definition)
  | "schema" => some schemaDefinition
  | "scalar" => some scalarDefinition
  | "type" => some objectDefinition
  | "interface" => some interfaceDefinition
  | "union" => some unionDefinition
  | "enum" => some enumDefinition
  | "input" => some inputDefinition
  | "directive" => some directiveDefinition
  | _ => none

/-! ### Extensions -/

/-- An extension has to add something. -/
def requireAddition (present : Bool) : Parser Unit := do
  if present then pure () else unexpectedHere

/-- The rest of an extension of the root operations. -/
def schemaExtension : Parser Definition := do
  let ds ← constDirectives
  let roots ← optionalMany .braceL rootOperation .braceR
  requireAddition (!ds.isEmpty || !roots.isEmpty)
  return .unsupported

/-- The rest of an extension of a scalar type. -/
def scalarExtension : Parser Definition := do
  let _ ← name
  let ds ← constDirectives
  requireAddition (!ds.isEmpty)
  return .unsupported

/-- The rest of an extension of an object type or interface. -/
def fieldsExtension : Parser Definition := do
  let _ ← name
  let interfaces ← implementedInterfaces
  let ds ← constDirectives
  let fields ← fieldDefinitions
  requireAddition (!interfaces.isEmpty || !ds.isEmpty || !fields.isEmpty)
  return .unsupported fields

/-- The rest of an extension of a union. -/
def unionExtension : Parser Definition := do
  let _ ← name
  let ds ← constDirectives
  let members ← unionMembers
  requireAddition (!ds.isEmpty || !members.isEmpty)
  return .unsupported

/-- The rest of an extension of an enum. -/
def enumExtension : Parser Definition := do
  let _ ← name
  let ds ← constDirectives
  let members ← enumValues
  requireAddition (!ds.isEmpty || !members.isEmpty)
  return .unsupported

/-- The rest of an extension of an input type. -/
def inputExtension : Parser Definition := do
  let _ ← name
  let ds ← constDirectives
  let fields ← inputFields
  requireAddition (!ds.isEmpty || !fields.isEmpty)
  return .unsupported fields

/-- The rest of an extension after its two keywords. -/
def extensionOf? : String → Option (Parser Definition)
  | "schema" => some schemaExtension
  | "scalar" => some scalarExtension
  | "type" => some fieldsExtension
  | "interface" => some fieldsExtension
  | "union" => some unionExtension
  | "enum" => some enumExtension
  | "input" => some inputExtension
  | _ => none

/-- An extension. -/
def extension : Parser Definition := rule do
  let next ← lookahead
  match next.lexeme with
  | .name word =>
    match extensionOf? word with
    | some rest =>
      rule do
        keyword "extend"
        keyword word
        rest
    | none => unexpected next
  | _ => unexpected next

end ElmSchema.Document.Parser
