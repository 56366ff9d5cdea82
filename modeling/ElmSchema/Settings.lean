import ElmSchema.Code.Module
import ElmSchema.Json.Shown
import ElmSchema.Output.Writer

/-!
# Settings

The settings of a conversion, as they are read from a JSON object. Values are stored as
they come and are interpreted where they are used, so a wrong value is no error until it is
needed. Entries under unknown keys are passed over.

Some keys are reserved. An entry under `__class__` or `__weakref__` is refused, an object
under `__dict__` takes the place of all settings made before it, and an entry under
`to_dict` makes the summary of the settings unavailable.
-/

namespace ElmSchema

/-- The setting of how files are written. -/
inductive OutputSetting where
  /-- Whether to check the contents and whether to write them at once. -/
  | policy (validate : Json) (atomic : Json)
  /-- A value that does not say how. -/
  | other (v : Json)

/-- The settings of a conversion. The extensions of schema files and the output setting
can be missing if the settings have been replaced. -/
structure Settings where
  withUtils : Json := .bool false
  withInputs : Json := .bool false
  schemaExtensions : Option Json := some (.array [.string ".graphql", .string ".gql"])
  outputExtension : Json := .string ".elm"
  output : Option OutputSetting := some (.policy (.bool true) (.bool true))
  /-- What stands in the way of a summary. -/
  obstacle : Option Json := none

/-- Why settings cannot be read or used. The values in question are known by their kinds. -/
inductive SettingsError where
  /-- The settings are no object. -/
  | notObject (kind : String)
  /-- A value has no elements. -/
  | notIterable (kind : String)
  /-- An element cannot be looked up. -/
  | unhashable (kind : String)
  /-- The output setting does not say how to write. -/
  | noWritePolicy (kind : String)
  /-- A setting is missing. -/
  | missing (setting : String)
  /-- The summary is unavailable. -/
  | noSummary (kind : String)
  /-- An entry under `__class__`. -/
  | classEntry (kind : String)
  /-- An entry under `__dict__` that is no object. -/
  | dictEntry (kind : String)
  /-- An entry under `__weakref__`. -/
  | weakrefEntry
deriving DecidableEq, Repr

/-- The wording of an error. -/
def SettingsError.message : SettingsError → String
  | .notObject kind => "'" ++ kind ++ "' object has no attribute 'items'"
  | .notIterable kind => "'" ++ kind ++ "' object is not iterable"
  | .unhashable kind => "unhashable type: '" ++ kind ++ "'"
  | .noWritePolicy kind => "'" ++ kind ++ "' object has no attribute 'validate_before_write'"
  | .missing setting => "'CodeGeneratorConfig' object has no attribute '" ++ setting ++ "'"
  | .noSummary kind => "'" ++ kind ++ "' object is not callable"
  | .classEntry kind => "__class__ must be set to a class, not '" ++ kind ++ "' object"
  | .dictEntry kind => "__dict__ must be set to a dictionary, not a '" ++ kind ++ "'"
  | .weakrefEntry =>
    "attribute '__weakref__' of 'CodeGeneratorConfig' objects is not writable"

/-- The elements of a value: the items of an array, the keys of an object, the characters
of a string. -/
def Json.elements : Json → Except SettingsError (List Json)
  | .array items => .ok items
  | .object entries => .ok (entries.map fun entry => .string entry.1)
  | .string s => .ok (s.map fun c => .string [c])
  | v => .error (.notIterable v.kindName)

namespace Settings

/-- The extensions that a value stands for. A string is a single extension. -/
def extensionsOf : Json → Except SettingsError Json
  | .string s => .ok (.array [.string s])
  | v => do
    let items ← v.elements
    return .array items

/-- The setting of how to write that an object stands for. -/
def policyOf (entries : List (LooseText × Json)) : OutputSetting :=
  .policy ((Json.entryAt? "validate_before_write" entries).getD (.bool true))
    ((Json.entryAt? "atomic_write" entries).getD (.bool true))

/-- Settings made of stored values alone. -/
def ofStored (entries : List (LooseText × Json)) : Settings where
  withUtils := (Json.entryAt? "with_utils" entries).getD (.bool false)
  withInputs := (Json.entryAt? "with_inputs" entries).getD (.bool false)
  schemaExtensions := Json.entryAt? "schema_extensions" entries
  outputExtension := (Json.entryAt? "output_extension" entries).getD (.string ".elm")
  output := (Json.entryAt? "output" entries).map .other
  obstacle := Json.entryAt? "to_dict" entries

/-- Settings with an output setting. A value that is no object takes the place of an output
setting that is there. -/
def setOutput (s : Settings) : Json → Settings
  | .object entries => { s with output := some (policyOf entries) }
  | v => { s with output := s.output.map fun _ => .other v }

/-- Settings with a further entry. -/
def set (s : Settings) (key : String) (v : Json) : Except SettingsError Settings :=
  match key with
  | "with_utils" => .ok { s with withUtils := v }
  | "with_inputs" => .ok { s with withInputs := v }
  | "output_extension" => .ok { s with outputExtension := v }
  | "schema_extensions" => do
    let extensions ← extensionsOf v
    return { s with schemaExtensions := some extensions }
  | "output" => .ok (s.setOutput v)
  | "to_dict" => .ok { s with obstacle := some v }
  | "__class__" => .error (.classEntry v.kindName)
  | "__weakref__" => .error .weakrefEntry
  | "__dict__" =>
    match v with
    | .object entries => .ok (ofStored entries)
    | _ => .error (.dictEntry v.kindName)
  | _ => .ok s

/-- Settings with an entry under a loose key. A key that is no string is unknown. -/
def setLoose (s : Settings) (key : LooseText) (v : Json) : Except SettingsError Settings :=
  match key.toString? with
  | some key => s.set key v
  | none => .ok s

/-- Settings with further entries, one after the other. -/
def setAll (s : Settings) : List (LooseText × Json) → Except SettingsError Settings
  | [] => .ok s
  | (key, v) :: rest => do
    let s ← s.setLoose key v
    s.setAll rest

/-- The settings that a value stands for. -/
def ofJson : Json → Except SettingsError Settings
  | .object entries => setAll {} entries
  | v => .error (.notObject v.kindName)

/-- The extensions of schema files. -/
def extensions (s : Settings) : Except SettingsError Json :=
  match s.schemaExtensions with
  | some v => .ok v
  | none => .error (.missing "schema_extensions")

/-- The values that say how to write files. -/
def writeValues (s : Settings) : Except SettingsError (Json × Json) :=
  match s.output with
  | some (.policy validate atomic) => .ok (validate, atomic)
  | some (.other v) => .error (.noWritePolicy v.kindName)
  | none => .error (.missing "output")

/-- How to write files. -/
def writePolicy (s : Settings) : Except SettingsError WritePolicy := do
  let (validate, atomic) ← s.writeValues
  return ⟨validate.isTrue, atomic.isTrue⟩

/-- What modules have besides the types and decoders of their schemas. -/
def extras (s : Settings) : Extras :=
  ⟨s.withUtils.isTrue, s.withInputs.isTrue⟩

/-- The summary of settings, from which the same settings can be read. -/
def summary (s : Settings) : Except SettingsError Json := do
  match s.obstacle with
  | some v => .error (.noSummary v.kindName)
  | none =>
    let extensions ← (← s.extensions).elements
    let (validate, atomic) ← s.writeValues
    return .object [
      ("with_utils", s.withUtils),
      ("with_inputs", s.withInputs),
      ("schema_extensions", .array extensions),
      ("output_extension", s.outputExtension),
      ("output", .object [("validate_before_write", validate), ("atomic_write", atomic)])]

end Settings

end ElmSchema
