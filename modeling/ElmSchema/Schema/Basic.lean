/-!
# Schemas

The part of a document that an Elm module is made of: its enums, its object types and its
input types, each in document order. Names keep the spelling of the document.
-/

namespace ElmSchema

/-- The type of a field. Whether its values are required does not matter for a list, since
a list is always there and so are its elements. -/
structure FieldType where
  typeName : String
  isRequired : Bool := false
  isList : Bool := false
deriving DecidableEq, Repr

/-- A field of an object or input type. -/
structure FieldDef where
  name : String
  type : FieldType
deriving DecidableEq, Repr

/-- An enum with its values in the order of their declaration. -/
structure EnumDef where
  name : String
  values : List String
deriving DecidableEq, Repr

/-- An object or input type. -/
structure RecordDef where
  name : String
  fields : List FieldDef
deriving DecidableEq, Repr

/-- The enums, object types and input types of a document. -/
structure Schema where
  enums : List EnumDef
  objects : List RecordDef
  inputs : List RecordDef
deriving DecidableEq, Repr

/-- Whether a schema declares nothing. -/
def Schema.isEmpty (s : Schema) : Bool :=
  s.enums.isEmpty && s.objects.isEmpty && s.inputs.isEmpty

end ElmSchema
