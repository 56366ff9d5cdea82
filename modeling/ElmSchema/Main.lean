import ElmSchema.Command.Run

/-!
# The command on a machine

The file system of the machine as a file system of the program, and the command that runs
on it.
-/

namespace ElmSchema.Machine

/-- The number of an error. Some operations of the machine report it negated. -/
def errorNumber (code : UInt32) : Nat :=
  if code.toNat < 0x80000000 then code.toNat else 0x100000000 - code.toNat

/-- The number and the wording of an error of the machine. -/
def numberAndText : IO.Error → Nat × String
  | .alreadyExists _ code text => (errorNumber code, text)
  | .otherError code text => (errorNumber code, text)
  | .resourceBusy code text => (errorNumber code, text)
  | .resourceVanished code text => (errorNumber code, text)
  | .unsupportedOperation code text => (errorNumber code, text)
  | .hardwareFault code text => (errorNumber code, text)
  | .unsatisfiedConstraints code text => (errorNumber code, text)
  | .illegalOperation code text => (errorNumber code, text)
  | .protocolError code text => (errorNumber code, text)
  | .timeExpired code text => (errorNumber code, text)
  | .interrupted _ code text => (errorNumber code, text)
  | .noFileOrDirectory _ code text => (errorNumber code, text)
  | .invalidArgument _ code text => (errorNumber code, text)
  | .permissionDenied _ code text => (errorNumber code, text)
  | .resourceExhausted _ code text => (errorNumber code, text)
  | .inappropriateType _ code text => (errorNumber code, text)
  | .noSuchThing _ code text => (errorNumber code, text)
  | .unexpectedEof => (0, "unexpected end of file")
  | .userError text => (0, text)

/-- Why a path is not handed to the machine: it names nothing, or it is no string. -/
def obstacle? (p : Path) : Option PathFault :=
  match p.fault? with
  | some f => some f
  | none => if p.looseText.hasHalf then some (.loneHalf p.looseText) else none

/-- Perform an action on some paths, and turn an error of the machine into a system
error. -/
def attempt {α : Type} (paths : List Path) (action : IO α) : IO (Except FileError α) := do
  match paths.findSome? obstacle? with
  | some f => return .error (.badPath f)
  | none =>
    try
      return .ok (← action)
    catch e =>
      let (number, text) := numberAndText e
      return .error (.system ⟨.ofNumber number text, paths⟩)

/-- The kind of what a path leads to. -/
def kindOf (p : Path) : IO EntryKind := do
  let file := (← IO.currentDir) / p.text
  match (← file.metadata).type with
  | .dir => return .directory
  | _ => return .file

/-- The names in a directory. -/
def list (p : Path) : IO (List LooseText) := do
  let folder := (← IO.currentDir) / p.text
  return (← folder.readDir).toList.map fun entry => LooseText.ofString entry.fileName

/-- A text of eight random letters and digits. -/
def randomTag : Nat → IO String
  | 0 => return ""
  | n + 1 => do
    let letters := "abcdefghijklmnopqrstuvwxyz0123456789_".toList
    let i ← IO.rand 0 (letters.length - 1)
    let rest ← randomTag n
    return String.singleton (letters.getD i 'a') ++ rest

/-- Make an empty file with a new name, in at most the given number of attempts. -/
def createTemporary (folder : Path) (before after : LooseText) :
    Nat → IO (Except FileError Path)
  | 0 => return .error (.system ⟨.noTemporaryName, []⟩)
  | n + 1 => do
    let p := folder.child (before ++ LooseText.ofString (← randomTag 8) ++ after)
    match ← attempt [p] (IO.FS.Handle.mk p.text .writeNew) with
    | .ok _ => return .ok p
    | .error (.system ⟨.alreadyThere, _⟩) => createTemporary folder before after n
    | .error e => return .error e

/-- The file system of the machine. -/
instance : FileSystem IO where
  workingDirectory := do return .ofText (LooseText.ofString (← IO.currentDir).toString)
  kindOf p := attempt [p] (kindOf p)
  list p := attempt [p] (list p)
  read p := attempt [p] do return (← IO.FS.readBinFile p.text).data.toList
  makeDirectory p := attempt [p] (IO.FS.createDir p.text)
  createTemporary folder before after := createTemporary folder.normalize before after 100
  write p bytes := attempt [p] (IO.FS.writeBinFile p.text ⟨bytes.toArray⟩)
  rename source target := attempt [source, target] (IO.FS.rename source.text target.text)
  remove p := attempt [p] (IO.FS.removeFile p.text)

/-- Print what a run of the command reports. -/
def print (report : Command.Report) : IO Unit := do
  (← IO.getStdout).putStr report.stdout
  (← IO.getStderr).putStr report.stderr
  match report.crash with
  | some crash => (← IO.getStderr).putStr (crash.message ++ "\n")
  | none => pure ()

end ElmSchema.Machine

/-- Convert the schema files that the arguments name. -/
def main (args : List String) : IO UInt32 := do
  let report ← (ElmSchema.Command.run args : IO ElmSchema.Command.Report)
  ElmSchema.Machine.print report
  return UInt32.ofNat report.exitCode
