/-!
# Tokens

The tokens of a schema document. A token is a lexeme together with the offsets of its
first character and of the character after its last one.
-/

namespace ElmSchema.Document

/-- The punctuation of a document. -/
inductive Punctuator where
  | bang
  | dollar
  | amp
  | parenL
  | parenR
  | spread
  | colon
  | equals
  | at
  | bracketL
  | bracketR
  | braceL
  | pipe
  | braceR
deriving DecidableEq, Repr

/-- The spelling of a punctuator. -/
def Punctuator.text : Punctuator → String
  | .bang => "!"
  | .dollar => "$"
  | .amp => "&"
  | .parenL => "("
  | .parenR => ")"
  | .spread => "..."
  | .colon => ":"
  | .equals => "="
  | .at => "@"
  | .bracketL => "["
  | .bracketR => "]"
  | .braceL => "\x7b"
  | .pipe => "|"
  | .braceR => "\x7d"

/-- The punctuator of one character. -/
def Punctuator.ofChar? : Char → Option Punctuator
  | '!' => some .bang
  | '$' => some .dollar
  | '&' => some .amp
  | '(' => some .parenL
  | ')' => some .parenR
  | ':' => some .colon
  | '=' => some .equals
  | '@' => some .at
  | '[' => some .bracketL
  | ']' => some .bracketR
  | '{' => some .braceL
  | '|' => some .pipe
  | '}' => some .braceR
  | _ => none

/-- A token without its place. Numbers keep their spelling, strings hold the text they
stand for. -/
inductive Lexeme where
  | eof
  | punct (p : Punctuator)
  | name (value : String)
  | int (value : String)
  | float (value : String)
  | string (value : String)
  | blockString (value : String)
deriving DecidableEq, Repr

/-- The text that a lexeme carries. -/
def Lexeme.value? : Lexeme → Option String
  | .eof => none
  | .punct _ => none
  | .name v => some v
  | .int v => some v
  | .float v => some v
  | .string v => some v
  | .blockString v => some v

/-- How messages speak of a lexeme. -/
def Lexeme.description : Lexeme → String
  | .eof => "<EOF>"
  | .punct p => "'" ++ p.text ++ "'"
  | .name v => "Name '" ++ v ++ "'"
  | .int v => "Int '" ++ v ++ "'"
  | .float v => "Float '" ++ v ++ "'"
  | .string v => "String '" ++ v ++ "'"
  | .blockString v => "BlockString '" ++ v ++ "'"

/-- Whether a lexeme is a string of either kind. -/
def Lexeme.isString : Lexeme → Bool
  | .string _ => true
  | .blockString _ => true
  | _ => false

/-- A token of a document. -/
structure Token where
  lexeme : Lexeme
  start : Nat
  stop : Nat
deriving DecidableEq, Repr

end ElmSchema.Document
