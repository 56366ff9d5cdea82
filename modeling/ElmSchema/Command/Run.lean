import ElmSchema.Command.Arguments
import ElmSchema.Discovery
import ElmSchema.Generation
import ElmSchema.Json.Reader
import ElmSchema.Text.ControlSequence
import ElmSchema.Text.Line

/-!
# Running the command

The command converts a schema file, or the schema files of a folder one after the other. A
file that cannot be converted is reported, and the others are converted all the same. Some
faults end the command at once.

What the command prints for its user has no control sequences in it. The lines that tell of
events are printed as they are. A verbose run also prints, after the line that tells of a
failure, the calls that led to it; these are left out here.
-/

namespace ElmSchema.Command

/-! ### Texts -/

/-- The line that shows how the command is used. -/
def usageLine : String :=
  "Usage: graphql-to-elm [OPTIONS] PATH\n"

/-- The help text. -/
def helpText : String :=
  usageLine ++
  "\n" ++
  "  Generate Elm types and decoders from a GraphQL schema.\n" ++
  "\n" ++
  "  PATH is a schema file or a folder. If a folder, all its .graphql and .gql\n" ++
  "  files are converted (not recursive).\n" ++
  "\n" ++
  "Options:\n" ++
  "  -o, --output PATH  File or folder. If folder, the output file is named after\n" ++
  "                     the module. Defaults to stdout.\n" ++
  "  --with-utils       Include the utils functions in the results.\n" ++
  "  --with-inputs      Include record aliases for input types.\n" ++
  "  -c, --config PATH\n" ++
  "  -v, --verbose\n" ++
  "  --help             Show this message and exit.\n"

/-- What is printed for a mistake in the use of the command. -/
def UsageError.message (e : UsageError) : String :=
  let error := "Error: " ++ e.text ++ "\n"
  if e.showsUsage then
    usageLine ++ "Try 'graphql-to-elm --help' for help.\n\n" ++ error
  else error

/-! ### Reports -/

/-- A fault that ends the command at once. -/
inductive Crash where
  | unreadable (e : Document.ReadError)
  | settings (e : SettingsError)
  | badJson (f : Json.Fault) (text : List Char)
  | badUtf8 (f : Text.Utf8.Fault)
  | file (e : FileError)
  /-- A text that is to be printed or written cannot be given as bytes. -/
  | unencodable (text : LooseText)
deriving DecidableEq, Repr

/-- The wording of a fault. -/
def Crash.message : Crash → String
  | .unreadable e => e.message
  | .settings e => e.message
  | .badJson f text => f.message text
  | .badUtf8 f => f.message
  | .file e => e.message
  | .unencodable text => text.unfitMessage fun x => !x.isHalf

/-- What a run of the command prints, with its exit code and the fault that ended it. -/
structure Report where
  stdout : String := ""
  stderr : String := ""
  exitCode : Nat := 0
  crash : Option Crash := none
deriving DecidableEq, Repr

/-- What is printed, in the order of printing within each channel. -/
structure Transcript where
  stdout : String := ""
  stderr : String := ""
deriving DecidableEq, Repr

/-- One transcript after another. -/
def Transcript.append (a b : Transcript) : Transcript :=
  ⟨a.stdout ++ b.stdout, a.stderr ++ b.stderr⟩

instance : Append Transcript :=
  ⟨Transcript.append⟩

/-- The transcript of a text that is printed for the user. -/
def Transcript.said (text : String) : Transcript :=
  ⟨Text.withoutControls text, ""⟩

/-- The transcript of a complaint. -/
def Transcript.complained (text : String) : Transcript :=
  ⟨"", Text.withoutControls text⟩

/-- Whether an event is printed. -/
def isShown (verbose : Bool) (e : Event) : Bool :=
  verbose || e.level == .warning

/-- The transcript of events. -/
def Transcript.ofEvents (verbose : Bool) (events : List Event) : Transcript :=
  ⟨"", String.join ((events.filter (isShown verbose)).map Event.line)⟩

/-- The report of a fault after a transcript. -/
def Report.crashed (t : Transcript) (c : Crash) : Report :=
  ⟨t.stdout, t.stderr, 1, some c⟩

/-! ### Converting files -/

/-- Why a file was not converted: for a reason that is reported and stands in no one's way,
or for a fault that ends the command. -/
inductive ConversionFailure where
  | reported (message : String)
  | fatal (c : Crash)
deriving DecidableEq, Repr

/-- The failure of a generation. -/
def ConversionFailure.ofGeneration : GenerationError → ConversionFailure
  | .unreadable (.badSyntax report) => .reported report
  | .unreadable e => .fatal (.unreadable e)
  | .malformed e => .reported e.message

/-- The number of calls that are under way when the command converts a file. -/
def conversionCalls : Nat :=
  11

/-- The text of a file, with line breaks unified. -/
def decodeText (bytes : List UInt8) : Except Text.Utf8.Fault (List Char) := do
  return Text.unifyNewlines (← Text.Utf8.decode bytes)

/-- The failure of writing a module. Only what the system or the check refuses is
reported. -/
def ConversionFailure.ofWriting (target : Path) (failure : WriteFailure Rejection) :
    ConversionFailure :=
  let reported := .reported (failure.message Rejection.message target)
  match failure with
  | .refused _ => reported
  | .file (.system _) => reported
  | .file e => .fatal (.file e)
  | .unencodable contents => .fatal (.unencodable contents)

section

variable {m : Type → Type} [Monad m] [FileSystem m]

open FileSystem

/-- The text of a schema file. -/
def readSchema (p : Path) : m (Except ConversionFailure String) := do
  match ← read p with
  | .error (.system e) => return .error (.reported ("Cannot read schema: " ++ e.message))
  | .error e => return .error (.fatal (.file e))
  | .ok bytes =>
    match decodeText bytes with
    | .error f => return .error (.reported ("Cannot read schema: " ++ f.message))
    | .ok cs => return .ok (String.ofList cs)

/-- The line that tells the target of a module. -/
def targetLine (target : Path) : LooseText :=
  LooseText.ofString "Output: " ++ target.looseText ++ LooseText.ofString "\n"

/-- Print the line that tells the target of a module. A half of a surrogate pair cannot be
printed. -/
def announce (target : Path) : Transcript × Except ConversionFailure Unit :=
  match (targetLine target).toString? with
  | some text => (.said text, .ok ())
  | none => ({}, .error (.fatal (.unencodable (targetLine target))))

/-- Write a module to the file that the output path stands for. -/
def deliver (verbose : Bool) (settings : Settings) (output : Path) (moduleName code : String) :
    m (Transcript × Except ConversionFailure Unit) := do
  match ← outputFile output moduleName settings.outputExtension with
  | .error e => return ({}, .error (.fatal (.file e)))
  | .ok target =>
    match settings.writePolicy with
    | .error e => return ({}, .error (.fatal (.settings e)))
    | .ok policy =>
      let outcome ← Writer.writeFile conversionCalls policy (Writer.codeCheck code) target code
      let log := Transcript.ofEvents verbose outcome.events
      match outcome.result with
      | .error failure => return (log, .error (.ofWriting target failure))
      | .ok _ =>
        let (line, result) := announce target
        return (log ++ line, result)

/-- Convert a schema file. -/
def convert (verbose : Bool) (settings : Settings) (output : Option Path) (input : Path) :
    m (Transcript × Except ConversionFailure Unit) := do
  let moduleName := input.moduleName
  let start := Transcript.ofEvents verbose [.converting input.text moduleName]
  match ← readSchema input with
  | .error failure => return (start, .error failure)
  | .ok text =>
    let (events, result) := (Source.text text).generate conversionCalls moduleName settings.extras
    let log := start ++ Transcript.ofEvents verbose events
    match result with
    | .error e => return (log, .error (.ofGeneration e))
    | .ok code =>
      match output with
      | none => return (log ++ .said code, .ok ())
      | some p =>
        let (rest, result) ← deliver verbose settings p moduleName code
        return (log ++ rest, result)

/-- The transcript of a failure that is reported. The calls that led to it, which a verbose
run prints after the event, are left out. -/
def reportFailure (verbose : Bool) (input : Path) (message : String) : Transcript :=
  Transcript.ofEvents verbose [.conversionFailed input.text] ++
    .complained ("Error: " ++ input.name.shown ++ ": " ++ message ++ "\n")

/-- Convert schema files one after the other, after the given transcript. The exit code is
one if some file failed, here or before. -/
def convertAll (verbose : Bool) (settings : Settings) (output : Option Path)
    (before : Transcript) (failed : Bool) : List Path → m Report
  | [] => return ⟨before.stdout, before.stderr, if failed then 1 else 0, none⟩
  | input :: rest => do
    let (log, result) ← convert verbose settings output input
    let log := before ++ log
    match result with
    | .ok _ => convertAll verbose settings output log failed rest
    | .error (.reported message) =>
      convertAll verbose settings output (log ++ reportFailure verbose input message) true rest
    | .error (.fatal c) => return .crashed log c

/-! ### Settings and input files -/

/-- The settings in a settings file. -/
def readSettings (p : Path) : m (Except Crash Settings) := do
  match ← read p with
  | .error e => return .error (.file e)
  | .ok bytes =>
    match decodeText bytes with
    | .error f => return .error (.badUtf8 f)
    | .ok cs =>
      match Json.read cs with
      | .error f => return .error (.badJson f cs)
      | .ok v =>
        match Settings.ofJson v with
        | .error e => return .error (.settings e)
        | .ok settings => return .ok settings

/-- Settings with the options of the command, which win over a settings file. -/
def applyOptions (a : Arguments) (s : Settings) : Settings :=
  let s := if a.withUtils then { s with withUtils := .bool true } else s
  if a.withInputs then { s with withInputs := .bool true } else s

/-- The schema files that a path stands for. -/
def inputFiles (settings : Settings) (p : Path) : m (Except Crash (List Path)) := do
  match ← isDirectory p with
  | .error e => return .error (.file e)
  | .ok false => return .ok [p]
  | .ok true =>
    match settings.extensions with
    | .error e => return .error (.settings e)
    | .ok extensions =>
      match ← schemaFiles p extensions with
      | .error (.extensions e) => return .error (.settings e)
      | .error (.file e) => return .error (.file e)
      | .ok files => return .ok files

/-! ### The command -/

/-- Why arguments lead to no run: they are used in a wrong way, or a fault ends the command. -/
inductive Refusal where
  | misuse (e : UsageError)
  | fatal (c : Crash)
deriving DecidableEq, Repr

/-- The report of a refusal. -/
def Refusal.report : Refusal → Report
  | .misuse e => { stderr := Text.withoutControls e.message, exitCode := 2 }
  | .fatal c => .crashed {} c

/-- The paths among the values of options. -/
structure OptionPaths where
  output : Option Path := none
  config : Option Path := none

/-- The paths that the command works on. -/
structure Paths extends OptionPaths where
  input : Path

/-- The absolute path that an argument stands for. It has one root, however many slashes the
argument starts with. -/
def resolve (argument : String) : m (Except Refusal Path) := do
  let p := (← workingDirectory).join argument
  match p.fault? with
  | some f => return .error (.fatal (.file (.badPath f)))
  | none => return .ok { p.normalize with root := "/" }

/-- The path that an argument stands for, provided that it leads somewhere. -/
def resolvePresent (parameter argument : String) : m (Except Refusal Path) := do
  match ← resolve argument with
  | .error r => return .error r
  | .ok p =>
    match ← kindOf p with
    | .ok _ => return .ok p
    | .error _ => return .error (.misuse (.noSuchPath parameter argument))

/-- Paths with that of an option. The settings file has to be there. -/
def resolveOption (paths : OptionPaths) (argument : String) :
    Switch → m (Except Refusal OptionPaths)
  | .output => do
    match ← resolve argument with
    | .error r => return .error r
    | .ok p => return .ok { paths with output := some p }
  | .config => do
    match ← resolvePresent "'--config' / '-c'" argument with
    | .error r => return .error r
    | .ok p => return .ok { paths with config := some p }
  | _ => return .ok paths

/-- Paths with those of some options, one after the other. -/
def resolveOptions (paths : OptionPaths) :
    List (Switch × String) → m (Except Refusal OptionPaths)
  | [] => return .ok paths
  | (s, argument) :: rest => do
    match ← resolveOption paths argument s with
    | .error r => return .error r
    | .ok paths => resolveOptions paths rest

/-- The paths in the arguments. The options come first, in the order in which they are
given, then the input path, and last the arguments that are left over. -/
def resolvePaths (a : Arguments) : m (Except Refusal Paths) := do
  match ← resolveOptions {} a.values with
  | .error r => return .error r
  | .ok paths =>
    match a.positional with
    | [] => return .error (.misuse .pathMissing)
    | argument :: rest =>
      match ← resolvePresent "'PATH'" argument with
      | .error r => return .error r
      | .ok input =>
        if rest.isEmpty then return .ok { paths with input := input }
        else return .error (.misuse (.extraArguments rest))

/-- The settings of a run. -/
def loadSettings (config : Option Path) : m (Except Crash Settings) :=
  match config with
  | none => pure (.ok {})
  | some p => readSettings p

/-- Run the command on sorted arguments. -/
def runWith (a : Arguments) (paths : Paths) : m Report := do
  match ← loadSettings paths.config with
  | .error c => return .crashed {} c
  | .ok settings =>
    let settings := applyOptions a settings
    match ← inputFiles settings paths.input with
    | .error c => return .crashed {} c
    | .ok files => convertAll a.verbose settings paths.output {} false files

/-- Run the command. -/
def run (args : List String) : m Report := do
  match Arguments.read args with
  | .error e => return Refusal.report (.misuse e)
  | .ok a =>
    if a.help then return { stdout := helpText }
    else
      match ← resolvePaths a with
      | .error r => return r.report
      | .ok paths => runWith a paths

end

end ElmSchema.Command
