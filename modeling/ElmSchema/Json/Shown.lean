import ElmSchema.Json.Basic
import ElmSchema.Text.Quoted

/-!
# JSON values in messages

How messages speak of a JSON value: the name of its kind, its quoted form, and its plain
form, which differs from the quoted one for strings only.
-/

namespace ElmSchema.Json

/-- The name of a value's kind. -/
def kindName : Json → String
  | .null => "NoneType"
  | .bool _ => "bool"
  | .number (.integer _) => "int"
  | .number _ => "float"
  | .string _ => "str"
  | .array _ => "list"
  | .object _ => "dict"

mutual

/-- The quoted form of a value. -/
def quotedForm : Json → String
  | .null => "None"
  | .bool true => "True"
  | .bool false => "False"
  | .number n => n.text "inf" "nan"
  | .string s => Text.quotedLoose s
  | .array items => "[" ++ ", ".intercalate (quotedItems items) ++ "]"
  | .object entries => "\x7b" ++ ", ".intercalate (quotedEntries entries) ++ "\x7d"

/-- The quoted forms of the items of an array. -/
def quotedItems : List Json → List String
  | [] => []
  | v :: rest => quotedForm v :: quotedItems rest

/-- The quoted forms of the entries of an object. -/
def quotedEntries : List (LooseText × Json) → List String
  | [] => []
  | (key, v) :: rest => (Text.quotedLoose key ++ ": " ++ quotedForm v) :: quotedEntries rest

end

/-- The quoted form of the items of an array, as a row in round brackets. A row of one item
has a comma after it. -/
def quotedRow (items : List Json) : String :=
  match items with
  | [v] => "(" ++ quotedForm v ++ ",)"
  | _ => "(" ++ ", ".intercalate (quotedItems items) ++ ")"

/-- The plain form of a value: a string is the text it holds. -/
def plainForm : Json → LooseText
  | .string s => s
  | v => quotedForm v

end ElmSchema.Json
