import ElmSchema.Schema.Basic

/-!
# Elm types and decoders

The Elm type of a field, and the expression that decodes a value of that type from JSON.
-/

namespace ElmSchema

/-- An Elm type. -/
inductive ElmType where
  | named (name : String)
  | list (element : ElmType)
  | maybe (value : ElmType)
deriving DecidableEq, Repr

/-- The text of an Elm type. -/
def ElmType.render : ElmType → String
  | .named name => name
  | .list element => "List " ++ element.render
  | .maybe value => "Maybe " ++ value.render

/-- An expression that decodes JSON. -/
inductive Decoder where
  | bool
  | string
  | int
  | float
  /-- The decoder that belongs to a type of the module. -/
  | declared (typeName : String)
  | list (element : Decoder)
  | nullable (value : Decoder)
deriving DecidableEq, Repr

/-- The name of the decoder that belongs to a type. -/
def decoderName (typeName : String) : String :=
  "decode" ++ typeName

/-- The text of a decoder. Decoders with an argument stand in parentheses, so that they can
be arguments themselves. -/
def Decoder.render : Decoder → String
  | .bool => "Decode.bool"
  | .string => "Decode.string"
  | .int => "Decode.int"
  | .float => "Decode.float"
  | .declared typeName => decoderName typeName
  | .list element => "(Decode.list " ++ element.render ++ ")"
  | .nullable value => "(Decode.nullable " ++ value.render ++ ")"

namespace FieldType

/-- The Elm type of a single value. Only the name of the Booleans differs. -/
def baseType (typeName : String) : ElmType :=
  .named (if typeName == "Boolean" then "Bool" else typeName)

/-- The decoder of a single value. -/
def baseDecoder (typeName : String) : Decoder :=
  if typeName == "Boolean" then .bool
  else if typeName == "String" then .string
  else if typeName == "Int" then .int
  else if typeName == "Float" then .float
  else .declared typeName

/-- The Elm type of a field. -/
def elmType (t : FieldType) : ElmType :=
  if t.isList then .list (baseType t.typeName)
  else if t.isRequired then baseType t.typeName
  else .maybe (baseType t.typeName)

/-- The decoder of a field. -/
def decoder (t : FieldType) : Decoder :=
  if t.isList then .list (baseDecoder t.typeName)
  else if t.isRequired then baseDecoder t.typeName
  else .nullable (baseDecoder t.typeName)

end FieldType

end ElmSchema
