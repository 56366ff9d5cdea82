import ElmSchema.CallLimit
import ElmSchema.Document.Token

/-!
# Calls

Reading a document takes calls: a rule of the grammar calls the rules for its parts, and who
takes a token calls what reads the next one. The number of calls that can be under way at the
same time is limited, so a text that is nested too deeply cannot be read. The report of this
tells what kind of call was the one too many.
-/

namespace ElmSchema.Document

/-- The kinds of calls. -/
inductive Call where
  /-- A rule, of the grammar or of the tokens. -/
  | rule
  /-- A basic operation, such as a test of a character or the making of a token. -/
  | operation
  /-- A comparison of two things. -/
  | comparison
deriving DecidableEq, Repr

/-- The wording for a call that is one too many. -/
def Call.overflow : Call → String
  | .rule => "maximum recursion depth exceeded"
  | .operation => "maximum recursion depth exceeded while calling a Python object"
  | .comparison => "maximum recursion depth exceeded in comparison"

/-- The last calls for the reading of a number. Digits after a leading zero are looked for,
but not read. -/
def numberCalls (spelling : String) : List Call :=
  match spelling.toList.filter fun c => c != '-' with
  | ['0'] => [.operation, .rule]
  | '0' :: _ => [.operation, .operation]
  | _ => [.rule, .operation]

/-- The calls for taking a token when the next one is as given: the first call at each depth,
from the outside to the inside. -/
def Lexeme.calls (next : Lexeme) : List Call :=
  [.rule, .comparison, .rule, .rule, .comparison, .comparison] ++
    match next with
    | .eof => [.operation, .rule]
    | .punct _ => [.operation, .rule]
    | .name _ => [.operation, .operation, .rule]
    | .int spelling => .operation :: numberCalls spelling
    | .float spelling => .operation :: numberCalls spelling
    | .string _ => [.comparison, .operation, .rule]
    | .blockString _ => [.comparison, .operation, .rule]

end ElmSchema.Document
