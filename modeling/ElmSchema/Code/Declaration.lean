import ElmSchema.Code.Type
import ElmSchema.Name.Case
import ElmSchema.Text.Blank

/-!
# Elm declarations

The declarations of an Elm module as data, with their text. A declaration is written as a
list of lines, and its text has no blanks at its end. Constructors are in Pascal case and
fields in camel case; names of types, texts of enum values and keys of fields stay as they
are in the schema.
-/

namespace ElmSchema

/-- The two conversions between the constructors of an enum and the texts they stand for,
as the arms of two case expressions. -/
structure Conversions where
  typeName : String
  toArms : List (String × String)
  fromArms : List (String × String)
deriving DecidableEq, Repr

/-- A declaration of an Elm module. -/
inductive Declaration where
  /-- A type with the given constructors. -/
  | union (name : String) (constructors : List String)
  /-- A name for the type of records with the given fields. -/
  | record (name : String) (fields : List (String × ElmType))
  /-- The two conversions between an enum and texts. -/
  | conversions (c : Conversions)
  /-- The decoder of an enum. -/
  | enumDecoder (name : String)
  /-- The decoder of a record, with the key of each field. -/
  | recordDecoder (name : String) (fields : List (String × Decoder))
  /-- The function that decoders of enums are made with. -/
  | textDecoder
deriving DecidableEq, Repr

/-! ### Names -/

/-- The name of the function from an enum to texts. -/
def toStringName (typeName : String) : String :=
  Name.camel typeName ++ "ToString"

/-- The name of the function from texts to an enum. -/
def fromStringName (typeName : String) : String :=
  Name.camel typeName ++ "FromString"

/-! ### Declarations of a schema -/

/-- The union type of an enum. -/
def EnumDef.union (e : EnumDef) : Declaration :=
  .union e.name (e.values.map Name.pascal)

/-- The conversions of an enum. -/
def EnumDef.conversions (e : EnumDef) : Declaration :=
  .conversions {
    typeName := e.name
    toArms := e.values.map fun value => (Name.pascal value, value)
    fromArms := e.values.map fun value => (value, Name.pascal value) }

/-- The decoder of an enum. -/
def EnumDef.decoder (e : EnumDef) : Declaration :=
  .enumDecoder e.name

/-- The record type of an object or input type. -/
def RecordDef.record (r : RecordDef) : Declaration :=
  .record r.name (r.fields.map fun field => (Name.camel field.name, field.type.elmType))

/-- The decoder of an object type. -/
def RecordDef.decoder (r : RecordDef) : Declaration :=
  .recordDecoder r.name (r.fields.map fun field => (field.name, field.type.decoder))

/-! ### Lines -/

/-- The two lines of an arm of a case expression. -/
def armLines (pattern result : String) : List String :=
  ["        " ++ pattern ++ " ->", "            " ++ result]

/-- A text between double quotes. -/
def inQuotes (text : String) : String :=
  "\"" ++ text ++ "\""

/-- Lists of lines with an empty line between two of them. -/
def separateLines : List (List String) → List String
  | [] => []
  | [lines] => lines
  | lines :: rest => lines ++ "" :: separateLines rest

/-- The lines of the function from an enum to texts. -/
def Conversions.toLines (c : Conversions) : List String :=
  [toStringName c.typeName ++ " : " ++ c.typeName ++ " -> String",
    toStringName c.typeName ++ " x =",
    "    case x of"] ++
  separateLines (c.toArms.map fun arm => armLines arm.1 (inQuotes arm.2))

/-- The lines of the function from texts to an enum. -/
def Conversions.fromLines (c : Conversions) : List String :=
  [fromStringName c.typeName ++ " : String -> Maybe " ++ c.typeName,
    fromStringName c.typeName ++ " x =",
    "    case x of"] ++
  (c.fromArms.flatMap fun arm => armLines (inQuotes arm.1) ("Just " ++ arm.2) ++ [""]) ++
  armLines "_" "Nothing"

/-- The line of a field in a record type, after its opening character. -/
def fieldLine (opening : String) (field : String × ElmType) : String :=
  "    " ++ opening ++ " " ++ field.1 ++ " : " ++ field.2.render

/-- The lines of a record type. -/
def recordLines : List (String × ElmType) → List String
  | [] => ["    \x7b\x7d"]
  | field :: rest => fieldLine "\x7b" field :: rest.map (fieldLine ",") ++ ["    \x7d"]

/-- The line of a field in the decoder of a record. -/
def requiredLine (field : String × Decoder) : String :=
  "        |> required " ++ inQuotes field.1 ++ " " ++ field.2.render

/-- The first two lines of a decoder. -/
def decoderHead (name : String) : List String :=
  [decoderName name ++ " : Decoder " ++ name, decoderName name ++ " ="]

/-- The function that decoders of enums are made with. -/
def textDecoderLines : List String :=
  ["decodeString : (String -> Maybe a) -> Decoder a",
    "decodeString map =",
    "    Decode.string",
    "        |> Decode.andThen",
    "            (\\x ->",
    "                case map x of",
    "                    Just v ->",
    "                        Decode.succeed v",
    "",
    "                    Nothing ->",
    "                        Decode.fail <| \"invalid value: \" ++ x",
    "            )"]

/-- The lines of a declaration. -/
def Declaration.lines : Declaration → List String
  | .union name constructors => ["type " ++ name ++ " = " ++ " | ".intercalate constructors]
  | .record name fields => ("type alias " ++ name ++ " =") :: recordLines fields
  | .conversions c => c.toLines ++ ["", ""] ++ c.fromLines
  | .enumDecoder name => decoderHead name ++ ["    decodeString " ++ fromStringName name]
  | .recordDecoder name fields =>
    decoderHead name ++
      ("    Decode.succeed " ++ (if fields.isEmpty then "\x7b\x7d" else name)) ::
        fields.map requiredLine
  | .textDecoder => textDecoderLines

/-- The text of a declaration. -/
def Declaration.render (d : Declaration) : String :=
  Text.trimEnd ("\n".intercalate d.lines)

end ElmSchema
