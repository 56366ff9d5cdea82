import ElmSchema.Document.Parser.Value
import ElmSchema.Document.Parser.TypeReference

/-!
# Operations and fragments

A document may hold queries beside its types. They have no place in an Elm module, so they
are checked and dropped.
-/

namespace ElmSchema.Document.Parser

/-- The name of a fragment, which is not `on`. -/
def fragmentName : Parser Unit := rule do
  let t ← current
  if t.lexeme.value? == some "on" then unexpected t
  else
    let _ ← name

/-- What may follow an ellipsis: the name of a fragment, or a fragment in place. -/
def spread (selections : Parser Unit) : Parser Unit := rule do
  let _ ← expect .spread
  let conditional ← acceptKeyword "on"
  match conditional, (← current).lexeme with
  | false, .name _ =>
    fragmentName
    let _ ← directives false
  | _, _ =>
    if conditional then
      let _ ← typeName
    let _ ← directives false
    selections

/-- A field of a selection. -/
def selectedField (selections : Parser Unit) : Parser Unit := rule do
  let _ ← name
  if ← accept .colon then
    let _ ← name
  arguments false
  let _ ← directives false
  if ← peek .braceL then selections

/-- A selection set that is nested in itself less than `depth` times. -/
def selectionSetWithin : Nat → Parser Unit
  | 0 => throw (.tooDeep .rule)
  | depth + 1 => rule do
    let selection : Parser Unit := rule do
      if ← peek .spread then spread (selectionSetWithin depth)
      else selectedField (selectionSetWithin depth)
    let _ ← many .braceL selection .braceR

/-- A selection set. -/
def selectionSet : Parser Unit :=
  selectionSetWithin maxCalls

/-- The kind of an operation. -/
def operationType : Parser Unit := rule do
  let t ← current
  match t.lexeme with
  | .name v =>
    advance
    if v == "query" || v == "mutation" || v == "subscription" then pure ()
    else unexpected t
  | found => fail t.start (.expected .name found)

/-- The definition of a variable. -/
def variableDefinition : Parser Unit := rule do
  variableName
  let _ ← expect .colon
  let _ ← typeReference
  defaultValue
  let _ ← constDirectives

/-- The definitions of variables, if there are any. -/
def variableDefinitions : Parser Unit := rule do
  let _ ← optionalMany .parenL variableDefinition .parenR

/-- A query without a name and a kind. -/
def anonymousQuery : Parser Definition := rule do
  selectionSet
  return .unsupported

/-- An operation that starts with its kind. -/
def operation : Parser Definition := rule do
  operationType
  match (← current).lexeme with
  | .name _ =>
    let _ ← name
  | _ => pure ()
  variableDefinitions
  let _ ← directives false
  selectionSet
  return .unsupported

/-- The type that a fragment is about. -/
def typeCondition : Parser Unit := rule do
  keyword "on"
  let _ ← typeName

/-- The definition of a fragment. -/
def fragment : Parser Definition := rule do
  keyword "fragment"
  fragmentName
  typeCondition
  let _ ← directives false
  selectionSet
  return .unsupported

end ElmSchema.Document.Parser
