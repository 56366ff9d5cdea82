import ElmSchema.CallLimit
import ElmSchema.Path
import ElmSchema.Text.Quoted

/-!
# File systems

The operations that the program asks of a file system, as a class of monads. An operation
gives its result, or fails because the system refuses it or because a path names nothing.
Here are also the operations that are made of these: tests for files and directories, and
the creation of a directory with the directories it lies in, as long as these are not too
many for the calls that are under way.
-/

namespace ElmSchema

/-- The reason why an operation of the system fails. -/
inductive SystemFault where
  | noEntry
  | busy
  | alreadyThere
  | notDirectory
  | isDirectory
  | nameTooLong
  | notEmpty
  | noTemporaryName
  | other (number : Nat) (text : String)
deriving DecidableEq, Repr

/-- The number of a fault. -/
def SystemFault.number : SystemFault → Nat
  | .noEntry => 2
  | .busy => 16
  | .alreadyThere => 17
  | .notDirectory => 20
  | .isDirectory => 21
  | .nameTooLong => 36
  | .notEmpty => 39
  | .noTemporaryName => 17
  | .other number _ => number

/-- The wording of a fault. -/
def SystemFault.text : SystemFault → String
  | .noEntry => "No such file or directory"
  | .busy => "Device or resource busy"
  | .alreadyThere => "File exists"
  | .notDirectory => "Not a directory"
  | .isDirectory => "Is a directory"
  | .nameTooLong => "File name too long"
  | .notEmpty => "Directory not empty"
  | .noTemporaryName => "No usable temporary file name found"
  | .other _ text => text

/-- The fault of a number, with a wording for numbers that are not known. -/
def SystemFault.ofNumber (number : Nat) (text : String) : SystemFault :=
  match number with
  | 2 => .noEntry
  | 16 => .busy
  | 17 => .alreadyThere
  | 20 => .notDirectory
  | 21 => .isDirectory
  | 36 => .nameTooLong
  | 39 => .notEmpty
  | _ => .other number text

/-- An operation that the system refused: the reason, and the paths it was applied to. -/
structure SystemError where
  fault : SystemFault
  paths : List Path
deriving DecidableEq, Repr

/-- The wording of a system error. -/
def SystemError.message (e : SystemError) : String :=
  let head := "[Errno " ++ toString e.fault.number ++ "] " ++ e.fault.text
  if e.paths.isEmpty then head
  else head ++ ": " ++ " -> ".intercalate (e.paths.map fun p => Text.quotedLoose p.looseText)

/-- Why a path names nothing that could be there. -/
inductive PathFault where
  /-- The path holds the NUL character. -/
  | nullCharacter
  /-- The text of the path holds a half of a surrogate pair that stands for no byte. -/
  | loneHalf (text : LooseText)
deriving DecidableEq, Repr

/-- The wording of a fault of a path. -/
def PathFault.message : PathFault → String
  | .nullCharacter => "embedded null byte"
  | .loneHalf text => text.unfitMessage LooseChar.isNameable

/-- The fault of a path, if it has one. -/
def Path.fault? (p : Path) : Option PathFault :=
  if !p.looseText.all LooseChar.isNameable then some (.loneHalf p.looseText)
  else if p.hasNull then some .nullCharacter
  else none

/-- Why an operation on files fails. -/
inductive FileError where
  /-- The system refused the operation. -/
  | system (e : SystemError)
  /-- A path names nothing. -/
  | badPath (f : PathFault)
  /-- Too many directories would have to be made. -/
  | tooDeep
deriving DecidableEq, Repr

/-- The wording of an error. -/
def FileError.message : FileError → String
  | .system e => e.message
  | .badPath f => f.message
  | .tooDeep => "maximum recursion depth exceeded while calling a Python object"

/-- What a path leads to. -/
inductive EntryKind where
  | directory
  | file
deriving DecidableEq, Repr

/-- The operations of a file system. -/
class FileSystem (m : Type → Type) where
  /-- The directory that relative paths start from. -/
  workingDirectory : m Path
  /-- What a path leads to. -/
  kindOf : Path → m (Except FileError EntryKind)
  /-- The names in a directory, in any order. -/
  list : Path → m (Except FileError (List LooseText))
  /-- The contents of a file. -/
  read : Path → m (Except FileError (List UInt8))
  /-- Make a directory inside another one. -/
  makeDirectory : Path → m (Except FileError Unit)
  /-- Make an empty file in a directory, with a new name between the two given texts. -/
  createTemporary : Path → LooseText → LooseText → m (Except FileError Path)
  /-- Give a file new contents, and make it if there is none. -/
  write : Path → List UInt8 → m (Except FileError Unit)
  /-- Move a file or directory to another path, in place of what is there. -/
  rename : Path → Path → m (Except FileError Unit)
  /-- Remove a file. -/
  remove : Path → m (Except FileError Unit)

namespace FileSystem

variable {m : Type → Type} [Monad m] [FileSystem m]

/-- Whether a path leads to something of a kind. A path that leads nowhere or names nothing
is no error, any other fault is one. -/
def leadsTo (test : EntryKind → Bool) (p : Path) : m (Except FileError Bool) := do
  match ← kindOf p with
  | .ok kind => return .ok (test kind)
  | .error (.system e) =>
    match e.fault with
    | .noEntry => return .ok false
    | .notDirectory => return .ok false
    | _ => return .error (.system e)
  | .error (.badPath _) => return .ok false
  | .error .tooDeep => return .error .tooDeep

/-- Whether a path leads to a directory. -/
def isDirectory (p : Path) : m (Except FileError Bool) :=
  leadsTo (fun kind => kind == .directory) p

/-- Whether a path leads to a file. -/
def isFile (p : Path) : m (Except FileError Bool) :=
  leadsTo (fun kind => kind == .file) p

/-- Whether a path leads anywhere. -/
def isPresent (p : Path) : m (Except FileError Bool) :=
  leadsTo (fun _ => true) p

/-- Forgive an error about a path that is a directory all the same. -/
def forgiveDirectory (p : Path) (e : SystemError) : m (Except FileError Unit) := do
  match ← isDirectory p with
  | .ok true => return .ok ()
  | .ok false => return .error (.system e)
  | .error e => return .error e

/-- Make a directory, unless it is there. -/
def ensureDirectory (p : Path) : m (Except FileError Unit) := do
  match ← makeDirectory p with
  | .ok _ => return .ok ()
  | .error (.system e) =>
    match e.fault with
    | .noEntry => return .error (.system e)
    | _ => forgiveDirectory p e
  | .error e => return .error e

/-- Make a directory and less than `depth` directories that it lies in, unless they are
there. Nothing is made where more of them are missing. A directory that lies in itself is
tried once. -/
def makeDirectoriesWithin : Nat → Path → m (Except FileError Unit)
  | 0, _ => return .error .tooDeep
  | depth + 1, p => do
    match ← makeDirectory p with
    | .ok _ => return .ok ()
    | .error (.system e) =>
      match e.fault with
      | .noEntry =>
        if p.parent = p then return .error (.system e)
        else
          match ← makeDirectoriesWithin depth p.parent with
          | .ok _ => ensureDirectory p
          | .error e => return .error e
      | _ => forgiveDirectory p e
    | .error e => return .error e

/-- The number of calls that an operation on a path takes. -/
def operationCalls : Nat :=
  5

/-- The largest number of directories that can be made at once while a number of calls are
under way. Each directory takes a call, and the innermost call takes an operation. -/
def maxNewDirectories (calls : Nat) : Nat :=
  maxCalls - (calls + operationCalls)

/-- Make a directory and the directories that it lies in, unless they are there, while a
number of calls are under way. -/
def makeDirectories (calls : Nat) (p : Path) : m (Except FileError Unit) :=
  makeDirectoriesWithin (maxNewDirectories calls) p

end FileSystem

end ElmSchema
