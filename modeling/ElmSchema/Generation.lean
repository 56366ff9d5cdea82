import ElmSchema.Code.Module
import ElmSchema.Document.Parser
import ElmSchema.Schema.Extraction

/-!
# Generating modules

From the source of a schema to the text of an Elm module. A source is a text, or a document
that has been made already. What reads a text is told how many calls are under way, since
this limits how deeply the text can be nested.
-/

namespace ElmSchema

/-- The source of a schema. -/
inductive Source where
  | text (s : String)
  | document (doc : Document)

/-- Why no module could be generated. -/
inductive GenerationError where
  | unreadable (e : Document.ReadError)
  | malformed (e : MalformedType)

/-- The wording of an error. -/
def GenerationError.message : GenerationError → String
  | .unreadable e => e.message
  | .malformed e => e.message

/-- The document of a source. -/
def Source.read (calls : Nat) : Source → Except Document.ReadError Document
  | .text s => Document.read (calls + 1) s
  | .document doc => .ok doc

/-- The schema of a source, with the events on the way to it. -/
def Source.analyze (calls : Nat) (moduleName : String) (source : Source) :
    List Event × Except GenerationError Schema :=
  match source.read (calls + 1) with
  | .error e => ([], .error (.unreadable e))
  | .ok doc =>
    match Document.analyze moduleName doc with
    | (events, .ok schema) => (events, .ok schema)
    | (events, .error e) => (events, .error (.malformed e))

/-- The text of the module of a source, with the events on the way to it. -/
def Source.generate (calls : Nat) (moduleName : String) (extras : Extras) (source : Source) :
    List Event × Except GenerationError String :=
  match source.analyze (calls + 1) moduleName with
  | (events, .ok schema) => (events, .ok (schema.toModule moduleName extras).render)
  | (events, .error e) => (events, .error e)

end ElmSchema
