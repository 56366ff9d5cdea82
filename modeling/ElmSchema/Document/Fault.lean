import ElmSchema.Document.Call
import ElmSchema.Text.Hex

/-!
# Faults of a document

Why a text is no document. A syntax error has a cause and the offset it is reported at.
Apart from these, an escape that is cut off by the end of the text and a part that is nested
too deeply stop the reading without a place to report.
-/

namespace ElmSchema.Document

/-- What the grammar asks for in one place. -/
inductive Wanted where
  | punct (p : Punctuator)
  | name
  | eof
  | keyword (word : String)
deriving DecidableEq, Repr

/-- How messages speak of what is wanted. -/
def Wanted.description : Wanted → String
  | .punct p => "'" ++ p.text ++ "'"
  | .name => "Name"
  | .eof => "<EOF>"
  | .keyword word => "'" ++ word ++ "'"

/-- The cause of a syntax error. -/
inductive Cause where
  | unexpectedCharacter (c : Char)
  | singleQuote
  | digitAfterZero (c : Char)
  | expectedDigit (found : Option Char)
  | unterminatedString
  | invalidEscape (text : String)
  | invalidUnicodeEscape (text : String)
  | expected (wanted : Wanted) (found : Lexeme)
  | unexpected (found : Lexeme)
  | misplacedDescription
  | reservedEnumValue (found : Lexeme)
  | variableInConstant (name : String)
deriving DecidableEq, Repr

/-- How messages speak of a character, or of the end of the text. -/
def glyph : Option Char → String
  | none => "<EOF>"
  | some c =>
    if 0x20 ≤ c.toNat && c.toNat ≤ 0x7E then "'" ++ String.singleton c ++ "'"
    else "U+" ++ String.ofList (Text.hexUpper 4 c.toNat)

/-- The wording of a cause. -/
def Cause.text : Cause → String
  | .unexpectedCharacter c => "Unexpected character: " ++ glyph (some c) ++ "."
  | .singleQuote =>
    "Unexpected single quote character ('), did you mean to use a double quote (\")?"
  | .digitAfterZero c => "Invalid number, unexpected digit after 0: " ++ glyph (some c) ++ "."
  | .expectedDigit found => "Invalid number, expected digit but got: " ++ glyph found ++ "."
  | .unterminatedString => "Unterminated string."
  | .invalidEscape text => "Invalid character escape sequence: '" ++ text ++ "'."
  | .invalidUnicodeEscape text => "Invalid Unicode escape sequence: '" ++ text ++ "'."
  | .expected wanted found =>
    "Expected " ++ wanted.description ++ ", found " ++ found.description ++ "."
  | .unexpected found => "Unexpected " ++ found.description ++ "."
  | .misplacedDescription =>
    "Unexpected description, descriptions are supported only on type definitions."
  | .reservedEnumValue found =>
    found.description ++ " is reserved and cannot be used for an enum value."
  | .variableInConstant name => "Unexpected variable '$" ++ name ++ "' in constant value."

/-- A syntax error: its cause and the offset it is reported at. -/
structure SyntaxError where
  cause : Cause
  position : Nat
deriving DecidableEq, Repr

/-- A fault that stops the reading of a document. -/
inductive Fault where
  /-- The text breaks a rule of the language. -/
  | invalid (error : SyntaxError)
  /-- The text ends within an escape. -/
  | truncatedEscape
  /-- A part is nested too deeply: a call is one too many. -/
  | tooDeep (call : Call)
deriving DecidableEq, Repr

/-- Stop with a syntax error. -/
def failAt {α : Type} (position : Nat) (cause : Cause) : Except Fault α :=
  .error (.invalid ⟨cause, position⟩)

end ElmSchema.Document
