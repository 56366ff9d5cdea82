import ElmSchema.Document.Excerpt
import ElmSchema.Document.Parser.TypeSystem

/-!
# Reading documents

The grammar of a whole document, and the reader that turns a text into a document.
-/

namespace ElmSchema.Document

namespace Parser

/-- A definition that is no type definition and starts with a keyword. -/
def otherDefinitionOf? : String → Option (Parser Definition)
  | "query" => some operation
  | "mutation" => some operation
  | "subscription" => some operation
  | "fragment" => some fragment
  | "extend" => some extension
  | _ => none

/-- A definition. Only a type definition may have a description. -/
def definition : Parser Definition := rule do
  let t ← current
  if t.lexeme == .punct .braceL then anonymousQuery
  else
    let described := t.lexeme.isString
    let key ← if described then lookahead else pure t
    match key.lexeme with
    | .name word =>
      match definitionOf? word, described, otherDefinitionOf? word with
      | some body, _, _ => body
      | none, true, _ => fail t.start .misplacedDescription
      | none, false, some body => body
      | none, false, none => unexpected key
    | _ => unexpected key

/-- Definitions up to the end of the text. -/
def definitionsWithin : Nat → Parser Document
  | 0 => unexpectedHere
  | fuel + 1 => do
    let d ← definition
    if (← current).lexeme == .eof then return [d]
    else
      let ds ← definitionsWithin fuel
      return d :: ds

/-- A document: at least one definition. -/
def document : Parser Document := rule do
  rule do
    uncover
    definitionsWithin (← steps)

end Parser

/-- Why a text could not be read. -/
inductive ReadError where
  /-- The text breaks a rule of the language, as the report says. -/
  | badSyntax (report : String)
  /-- The text ends within an escape. -/
  | truncatedEscape
  /-- The text breaks a rule of the language, in a line that is no row of the text. -/
  | noSuchRow
  /-- A part is nested too deeply: a call is one too many. -/
  | tooDeep (call : Call)
deriving DecidableEq, Repr

/-- The wording of an error. -/
def ReadError.message : ReadError → String
  | .badSyntax report => report
  | .truncatedEscape => "string index out of range"
  | .noSuchRow => "list index out of range"
  | .tooDeep call => call.overflow

/-- The error for a fault in a text. -/
def ReadError.ofFault (cs : List Char) : Fault → ReadError
  | .truncatedEscape => .truncatedEscape
  | .tooDeep call => .tooDeep call
  | .invalid e =>
    match e.report? cs with
    | some report => .badSyntax report
    | none => .noSuchRow

/-- Run a parser on a whole text while a number of calls are under way. -/
def run {α : Type} (calls : Nat) (p : Parser α) (text : String) : Except ReadError α :=
  match (ReaderT.run p (calls + 1)).run' (lex text.toList) with
  | .ok x => .ok x
  | .error f => .error (.ofFault text.toList f)

/-- The document that a text writes, read while a number of calls are under way. -/
def read (calls : Nat) (text : String) : Except ReadError Document :=
  run calls Parser.document text

end ElmSchema.Document
