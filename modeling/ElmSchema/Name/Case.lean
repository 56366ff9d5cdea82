import ElmSchema.Name.Words

/-!
# Spellings of a name

The two spellings that Elm asks for. Types, constructors and modules are spelled in pascal
case, record fields and functions in camel case. Both are made of the words of a name, so
they hold ASCII letters and digits only.
-/

namespace ElmSchema.Name

/-- A word with its first letter in upper case and the others in lower case. -/
def capitalize : List Char → List Char
  | [] => []
  | c :: rest => c.toUpper :: rest.map Char.toLower

/-- A word in lower case. -/
def lowercase (word : List Char) : List Char :=
  word.map Char.toLower

/-- The pascal-case spelling of a list of words. -/
def joinPascal (ws : List (List Char)) : List Char :=
  ws.flatMap capitalize

/-- The camel-case spelling of a list of words. -/
def joinCamel : List (List Char) → List Char
  | [] => []
  | w :: ws => lowercase w ++ joinPascal ws

/-- The pascal-case spelling of a name. -/
def pascal (name : String) : String :=
  String.ofList (joinPascal (words name.toList))

/-- The camel-case spelling of a name. -/
def camel (name : String) : String :=
  String.ofList (joinCamel (words name.toList))

end ElmSchema.Name
