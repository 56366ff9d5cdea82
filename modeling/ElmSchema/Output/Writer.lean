import ElmSchema.Event
import ElmSchema.FileSystem
import ElmSchema.Output.Check
import ElmSchema.Text.Utf8

/-!
# Writing files

A file is written in one of two ways. The atomic way writes a temporary file beside the
target, checks the contents, and then moves the temporary file to the target; whatever
fails, the target is left as it was and the temporary file is removed. The direct way checks
the contents and then writes the target in place.

Contents are loose texts. Where a half of a surrogate pair stands in them, they cannot be
written as bytes. This shows only when the file has been opened, which leaves it empty.
-/

namespace ElmSchema

/-- How a file is written. -/
structure WritePolicy where
  validate : Bool := true
  atomic : Bool := true
deriving DecidableEq, Repr

/-- Why a file was not written: an operation on files failed, the contents cannot be written
as bytes, or the check refused them. -/
inductive WriteFailure (ε : Type) where
  | file (e : FileError)
  | unencodable (contents : LooseText)
  | refused (why : ε)
deriving Repr

/-- The wording of a failure to write a target. -/
def WriteFailure.message {ε : Type} (wording : ε → String) (target : Path) :
    WriteFailure ε → String
  | .file (.system e) => "Cannot write " ++ target.text ++ ": " ++ e.message
  | .file e => e.message
  | .unencodable contents => contents.unfitMessage fun x => !x.isHalf
  | .refused why => wording why

/-- The outcome of writing a file: the events, whether the contents were checked, and the
result. -/
structure WriteOutcome (ε : Type) where
  events : List Event
  checked : Bool
  result : Except (WriteFailure ε) Unit

/-- A check of contents that are about to be written. It is told the temporary file that
holds them, if there is one. -/
abbrev WriteCheck (m : Type → Type) (ε : Type) :=
  Option Path → m (Except (WriteFailure ε) Unit)

namespace Writer

variable {m : Type → Type} [Monad m] [FileSystem m] {ε : Type}

open FileSystem

/-- The outcome of a failed operation. -/
def failed (checked : Bool) (e : FileError) : WriteOutcome ε :=
  ⟨[], checked, .error (.file e)⟩

/-- Run a check if the policy asks for it. -/
def runCheck (policy : WritePolicy) (check : WriteCheck m ε) (temporary : Option Path) :
    m (Except (WriteFailure ε) Unit) :=
  if policy.validate then check temporary else pure (.ok ())

/-- Give a file new contents. It is empty afterwards if the contents cannot be written as
bytes. -/
def fill (file : Path) (contents : LooseText) : m (Except (WriteFailure ε) Unit) := do
  let bytes? := Text.Utf8.encode? contents
  match ← write file (bytes?.getD []) with
  | .error e => return .error (.file e)
  | .ok _ =>
    match bytes? with
    | some _ => return .ok ()
    | none => return .error (.unencodable contents)

/-- Remove a temporary file after a failure. The file may be gone already. -/
def discard (temporary : Path) : m (Except FileError (List Event)) := do
  match ← isPresent temporary with
  | .error e => return .error e
  | .ok false => return .ok []
  | .ok true =>
    match ← remove temporary with
    | .ok _ => return .ok []
    | .error _ => return .ok [.temporaryLeft temporary.text]

/-- Give up with a failure: the temporary file is removed. -/
def giveUp (temporary : Path) (checked : Bool) (failure : WriteFailure ε) :
    m (WriteOutcome ε) := do
  match ← discard temporary with
  | .ok events => return ⟨events, checked, .error failure⟩
  | .error e => return failed checked e

/-- Fill a temporary file, check it and move it to the target. -/
def fillAndMove (policy : WritePolicy) (check : WriteCheck m ε) (target temporary : Path)
    (contents : LooseText) : m (WriteOutcome ε) := do
  match ← fill temporary contents with
  | .error failure => giveUp temporary false failure
  | .ok _ =>
    match ← runCheck policy check (some temporary) with
    | .error failure => giveUp temporary policy.validate failure
    | .ok _ =>
      match ← rename temporary target with
      | .error e => giveUp temporary policy.validate (.file e)
      | .ok _ => return ⟨[.wrote target.text], policy.validate, .ok ()⟩

/-- What the name of a temporary file for a target starts with. -/
def temporaryStart (target : Path) : LooseText :=
  LooseText.ofString "." ++ target.name ++ LooseText.ofString "."

/-- Write a file by way of a temporary file, while a number of calls are under way. -/
def writeAtomic (calls : Nat) (policy : WritePolicy) (check : WriteCheck m ε) (target : Path)
    (contents : LooseText) : m (WriteOutcome ε) := do
  match ← makeDirectories (calls + 1) target.parent with
  | .error e => return failed false e
  | .ok _ =>
    match ← createTemporary target.parent (temporaryStart target) ".tmp" with
    | .error e => return failed false e
    | .ok temporary => fillAndMove policy check target temporary contents

/-- Write a file in place, while a number of calls are under way. -/
def writeDirect (calls : Nat) (policy : WritePolicy) (check : WriteCheck m ε) (target : Path)
    (contents : LooseText) : m (WriteOutcome ε) := do
  match ← runCheck policy check none with
  | .error failure => return ⟨[], policy.validate, .error failure⟩
  | .ok _ =>
    match ← makeDirectories calls target.parent with
    | .error e => return failed policy.validate e
    | .ok _ =>
      match ← fill target contents with
      | .error failure => return ⟨[], policy.validate, .error failure⟩
      | .ok _ => return ⟨[.wrote target.text], policy.validate, .ok ()⟩

/-- Write a file as the policy says, while a number of calls are under way. Writing by way of
a temporary file takes a call of its own, so that one directory less can be made. -/
def writeFile (calls : Nat) (policy : WritePolicy) (check : WriteCheck m ε) (target : Path)
    (contents : LooseText) : m (WriteOutcome ε) :=
  if policy.atomic then writeAtomic (calls + 1) policy check target contents
  else writeDirect (calls + 1) policy check target contents

/-- The check of Elm code, as a check of contents about to be written. -/
def codeCheck (code : LooseText) : WriteCheck m Rejection := fun _ =>
  pure <|
    match checkCode code with
    | .ok _ => .ok ()
    | .error why => .error (.refused why)

end Writer

end ElmSchema
