import ElmSchema.Settings

/-!
# Schema files and output files

The schema files of a folder, and the file that a module is written to.
-/

namespace ElmSchema

/-- Why the schema files of a folder could not be found. -/
inductive DiscoveryError where
  | extensions (e : SettingsError)
  | file (e : FileError)
deriving DecidableEq, Repr

/-- The wording of an error. -/
def DiscoveryError.message : DiscoveryError → String
  | .extensions e => e.message
  | .file e => e.message

/-- The texts among some values. An array or object cannot be looked up, so it is refused. -/
def lookupTexts : List Json → Except SettingsError (List LooseText)
  | [] => .ok []
  | v :: rest =>
    match v with
    | .array _ => .error (.unhashable v.kindName)
    | .object _ => .error (.unhashable v.kindName)
    | .string s => do
      let texts ← lookupTexts rest
      return s :: texts
    | _ => lookupTexts rest

/-- The suffixes that a value stands for. -/
def suffixesOf (v : Json) : Except SettingsError (List LooseText) := do
  lookupTexts (← v.elements)

/-- The extensions of schema files if nothing else is said. -/
def defaultExtensions : Json :=
  .array [.string ".graphql", .string ".gql"]

namespace FileSystem

variable {m : Type → Type} [Monad m] [FileSystem m]

/-- The paths that lead to files. -/
def filesAmong : List Path → m (Except FileError (List Path))
  | [] => pure (.ok [])
  | p :: rest => do
    match ← isFile p with
    | .error e => return .error e
    | .ok present =>
      match ← filesAmong rest with
      | .error e => return .error e
      | .ok files => return .ok (if present then p :: files else files)

/-- The files of a folder whose suffix is among those a value stands for, in the order of
their names. -/
def schemaFiles (folder : Path) (extensions : Json) : m (Except DiscoveryError (List Path)) := do
  match suffixesOf extensions with
  | .error e => return .error (.extensions e)
  | .ok suffixes =>
    match ← list folder with
    | .error e => return .error (.file e)
    | .ok names =>
      let sorted := names.mergeSort fun a b => decide (a ≤ b)
      match ← filesAmong (sorted.map folder.child) with
      | .error e => return .error (.file e)
      | .ok files =>
        return .ok (files.filter fun p => suffixes.contains p.suffix)

/-- The file that a module is written to. In a directory the file is named after the
module. -/
def outputFile (output : Path) (moduleName : String) (extension : Json) :
    m (Except FileError Path) := do
  match ← isDirectory output with
  | .error e => return .error e
  | .ok true => return .ok (output.join (LooseText.ofString moduleName ++ extension.plainForm))
  | .ok false => return .ok output

end FileSystem

end ElmSchema
