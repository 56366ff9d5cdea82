import ElmSchema.Document.Parser.Basic

/-!
# Values and directives

Values and directives never reach the Elm module, so they are checked and dropped. A
constant value holds no variable.
-/

namespace ElmSchema.Document.Parser

/-- A variable. -/
def variableName : Parser Unit := rule do
  let _ ← expect .dollar
  let _ ← name

/-- A variable where a constant is expected. -/
def constantVariable : Parser Unit := do
  let t ← expect .dollar
  match (← current).lexeme with
  | .name v => fail t.start (.variableInConstant v)
  | _ => unexpected t

/-- A name and what belongs to it. -/
def labelled (part : Parser Unit) : Parser Unit := rule do
  let _ ← name
  let _ ← expect .colon
  part

/-- A value that is nested in itself less than `depth` times. -/
def valueWithin (isConst : Bool) : Nat → Parser Unit
  | 0 => throw (.tooDeep .rule)
  | depth + 1 => rule do
    match (← current).lexeme with
    | .punct .bracketL =>
      let _ ← rule (any .bracketL (valueWithin isConst depth) .bracketR)
    | .punct .braceL =>
      let _ ← rule (any .braceL (labelled (valueWithin isConst depth)) .braceR)
    | .punct .dollar => rule (if isConst then constantVariable else variableName)
    | .punct _ => unexpectedHere
    | .eof => unexpectedHere
    | _ => advance

/-- A value. -/
def value (isConst : Bool) : Parser Unit :=
  valueWithin isConst maxCalls

/-- The default value that may follow an equals sign. -/
def defaultValue : Parser Unit := do
  if ← accept .equals then rule (value true)

/-- An argument of a field or directive. -/
def argument (isConst : Bool) : Parser Unit :=
  if isConst then rule (labelled (value true)) else labelled (value false)

/-- The arguments of a field or directive, if there are any. -/
def arguments (isConst : Bool) : Parser Unit := rule do
  let _ ← optionalMany .parenL (argument isConst) .parenR

/-- A directive. -/
def directive (isConst : Bool) : Parser String := rule do
  let _ ← expect .at
  let v ← name
  arguments isConst
  return v

/-- Directives as long as there are any. -/
def directivesWithin (isConst : Bool) : Nat → Parser (List String)
  | 0 => unexpectedHere
  | fuel + 1 => do
    if ← peek .at then
      let d ← directive isConst
      let ds ← directivesWithin isConst fuel
      return d :: ds
    else return []

/-- The names of the directives that come next. -/
def directives (isConst : Bool) : Parser (List String) := rule do
  directivesWithin isConst (← steps)

/-- The names of the directives that come next in a definition. -/
def constDirectives : Parser (List String) :=
  rule (directives true)

end ElmSchema.Document.Parser
