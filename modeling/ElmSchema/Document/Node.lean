import ElmSchema.Json.Shown

/-!
# Documents

What a schema document declares, as far as an Elm module can show it. A type node is a
chain of wrappers around a named type. A document may be built by hand as well as read from
text, so a chain may also end in something that is no type, and an enum may list members
that are no enum values.
-/

namespace ElmSchema.Document

/-- The place of a node in the text it was read from: the offsets of its first character
and of the character after its last one. -/
structure Span where
  start : Nat
  stop : Nat
deriving DecidableEq, Repr

/-- What may stand where a type is expected. -/
inductive Stray where
  | name
  | intValue
  | variable
  | value (v : Json)
  /-- A row of values. -/
  | row (items : List Json)

/-- A type node. A list that was read from text knows its place. -/
inductive TypeNode where
  | named (name : String)
  | nonNull (inner : TypeNode)
  | list (span : Option Span) (inner : TypeNode)
  | stray (s : Stray)

/-- A field of an object or input definition. -/
structure FieldNode where
  name : String
  type : TypeNode

/-- A member of an enum definition: an enum value, or a bare name that is none. -/
inductive EnumMember where
  | value (name : String)
  | bareName (name : String)
deriving DecidableEq, Repr

/-- A definition of a document. All that is neither an enum nor an object nor an input
type is unsupported; an interface and an extension may have fields all the same. -/
inductive Definition where
  | enum (name : String) (members : List EnumMember)
  | object (name : String) (fields : List FieldNode)
  | input (name : String) (fields : List FieldNode)
  | unsupported (fields : List FieldNode := [])

end ElmSchema.Document

namespace ElmSchema

/-- A document is the list of its definitions. -/
abbrev Document := List Document.Definition

end ElmSchema
