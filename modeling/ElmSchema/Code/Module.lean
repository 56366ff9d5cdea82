import ElmSchema.Code.Declaration

/-!
# Elm modules

A module is a name and a list of sections. The sections of a schema come in a fixed order,
and those without declarations are left out.
-/

namespace ElmSchema

/-- Declarations under a title. -/
structure Section where
  title : String
  declarations : List Declaration
deriving DecidableEq, Repr

/-- An Elm module. -/
structure Module where
  name : String
  sections : List Section
deriving DecidableEq, Repr

/-- What a module has besides the types and decoders of its schema. -/
structure Extras where
  withUtils : Bool := false
  withInputs : Bool := false
deriving DecidableEq, Repr

/-- The text of a section: its title in a banner, and its declarations with two empty lines
between two of them. -/
def Section.render (s : Section) : String :=
  "\n\n--\n-- " ++ s.title ++ "\n--\n\n\n" ++
    "\n\n\n".intercalate (s.declarations.map Declaration.render) ++ "\n"

/-- The head of a module. -/
def moduleHead (name : String) : String :=
  "module " ++ name ++ " exposing (..)\n\n" ++
    "import Json.Decode as Decode exposing (Decoder)\n" ++
    "import Json.Decode.Pipeline exposing (required)\n"

/-- The text of a module, which ends with one newline. -/
def Module.render (m : Module) : String :=
  Text.trimNewlines (moduleHead m.name ++ String.join (m.sections.map Section.render)) ++ "\n"

/-- The sections of a schema, the empty ones included. -/
def Schema.sections (s : Schema) (extras : Extras) : List Section :=
  [⟨"ENUMS DEFINITIONS", s.enums.map EnumDef.union⟩,
    ⟨"TYPES DEFINITIONS", s.objects.map RecordDef.record⟩,
    ⟨"INPUTS DEFINITIONS", if extras.withInputs then s.inputs.map RecordDef.record else []⟩,
    ⟨"ENUMS STRING CONVERSIONS", s.enums.map EnumDef.conversions⟩,
    ⟨"ENUMS DECODERS", s.enums.map EnumDef.decoder⟩,
    ⟨"TYPES DECODERS", s.objects.map RecordDef.decoder⟩,
    ⟨"UTILS", if extras.withUtils then [.textDecoder] else []⟩]

/-- The module of a schema. -/
def Schema.toModule (s : Schema) (name : String) (extras : Extras) : Module :=
  ⟨name, (s.sections extras).filter fun part => !part.declarations.isEmpty⟩

end ElmSchema
