/-!
# Events

What a conversion tells about its course. Each event has a level, a channel and a message;
the channels name the parts of the program that report them.
-/

namespace ElmSchema

/-- How important an event is. -/
inductive Level where
  | debug
  | info
  | warning
deriving DecidableEq, Repr

/-- The name of a level. -/
def Level.name : Level → String
  | .debug => "DEBUG"
  | .info => "INFO"
  | .warning => "WARNING"

/-- An event of a conversion. -/
inductive Event where
  /-- A schema file is about to be converted. -/
  | converting (path : String) (moduleName : String)
  /-- The conversion of a schema file has failed. -/
  | conversionFailed (path : String)
  /-- A document with `count` definitions has been read. -/
  | parsed (count : Nat) (moduleName : String)
  /-- An enum has no values. -/
  | emptyEnum (enum : String)
  /-- Two values of an enum have the same constructor. -/
  | collision (enum : String) (first : String) (second : String) (constructor : String)
  /-- Definitions have been passed over. -/
  | skipped (count : Nat)
  /-- A schema has been made of a document. -/
  | extracted (enums : Nat) (objects : Nat) (inputs : Nat)
  /-- A file has been written. -/
  | wrote (path : String)
  /-- A temporary file could not be removed. -/
  | temporaryLeft (path : String)
deriving DecidableEq, Repr

namespace Event

/-- The level of an event. -/
def level : Event → Level
  | .emptyEnum _ => .warning
  | .collision _ _ _ _ => .warning
  | .temporaryLeft _ => .warning
  | .wrote _ => .info
  | _ => .debug

/-- The channel of an event. -/
def channel : Event → String
  | .converting _ _ => "graphql_to_elm.graphql_to_elm"
  | .conversionFailed _ => "graphql_to_elm.graphql_to_elm"
  | .parsed _ _ => "graphql_to_elm.pipeline.generator"
  | .extracted _ _ _ => "graphql_to_elm.pipeline.generator"
  | .emptyEnum _ => "graphql_to_elm.pipeline.analyzer.extractor"
  | .collision _ _ _ _ => "graphql_to_elm.pipeline.analyzer.extractor"
  | .skipped _ => "graphql_to_elm.pipeline.analyzer.extractor"
  | .wrote _ => "graphql_to_elm.pipeline.writer.atomic_writer"
  | .temporaryLeft _ => "graphql_to_elm.pipeline.writer.atomic_writer"

/-- The message of an event. -/
def message : Event → String
  | .converting path moduleName => "Converting " ++ path ++ " as module " ++ moduleName
  | .conversionFailed path => "Conversion of " ++ path ++ " failed"
  | .parsed count moduleName =>
    "Parsed " ++ toString count ++ " definition(s) for module " ++ moduleName
  | .emptyEnum enum =>
    "Enum " ++ enum ++ " has no values; the generated Elm will not compile"
  | .collision enum first second constructor =>
    "Enum " ++ enum ++ " values " ++ first ++ " and " ++ second ++
      " both map to constructor " ++ constructor
  | .skipped count => "Skipped " ++ toString count ++ " unsupported definition(s)"
  | .extracted enums objects inputs =>
    "Extracted " ++ toString enums ++ " enum(s), " ++ toString objects ++ " object(s), " ++
      toString inputs ++ " input(s)"
  | .wrote path => "Wrote " ++ path
  | .temporaryLeft path => "Could not remove temporary file " ++ path

/-- The line of an event in a log. What a log shows after the line of a failure, the calls
that led to it, is no part of it. -/
def line (e : Event) : String :=
  e.level.name ++ ":" ++ e.channel ++ ":" ++ e.message ++ "\n"

end Event

end ElmSchema
