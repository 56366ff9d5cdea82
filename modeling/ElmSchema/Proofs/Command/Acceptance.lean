import ElmSchema.Command.Run
import ElmSchema.Proofs.Code.Balance
import ElmSchema.Proofs.Disk.Run
import ElmSchema.Proofs.Output.Atomic

/-!
# Generated code is accepted

The check of code before it is written never refuses a module that was generated from a text.
So if a schema can be read and resolved, and its module is to be written, the conversion fails for
other reasons only. The system fails, or it has no place for the path of the target. If the output
setting does not say how files are written, the conversion ends before anything is written. If the
path of the target cannot be printed, it ends after the module has been written.
-/

namespace ElmSchema

open FileSystem

/-! ### Contents that are accepted -/

namespace Writer

variable {ε : Type}

/-- A check that accepts all contents. -/
def acceptance {m : Type → Type} [Monad m] : WriteCheck m ε :=
  quietCheck fun _ => .ok ()

theorem runCheck_acceptance
    {m : Type → Type} [Monad m] [LawfulMonad m] (policy : WritePolicy) (temporary : Option Path) :
  runCheck policy acceptance temporary = (pure (.ok ()) : m (Except (WriteFailure ε) Unit))
  := by
  rw [runCheck]
  split
  · rfl
  · rfl

theorem run_fill_ofString (d : Disk) (file : Path) (contents : String) :
  d.run (fill file contents : StateM Disk (Except (WriteFailure ε) Unit))
    = let run := d.write file (Text.Utf8.encode contents)
      (run.1.mapError .file, run.2)
  := by
  rw [fill, Text.Utf8.encode?_ofString, Option.getD_some, Disk.run_bind, Disk.run_write]
  obtain ⟨⟨written, d₁⟩, hwritten⟩ : ∃ run, d.write file (Text.Utf8.encode contents) = run :=
    ⟨_, rfl⟩
  rw [hwritten]
  cases written <;> rfl

variable (calls : Nat) (policy : WritePolicy) (target : Path) (contents : String) (d : Disk)

theorem codeCheck_eq_acceptance
    {m : Type → Type} [Monad m] {code : LooseText} (h : checkCode code = .ok ()) :
  (codeCheck code : WriteCheck m Rejection) = acceptance
  := by
  funext temporary
  rw [codeCheck, h]
  rfl

end Writer

/-! ### Converting -/

namespace Command

/-- What the reading of a schema file makes of the bytes in it. -/
def textOfRead : Except FileError (List UInt8) → Except ConversionFailure String
  | .error (.system e) => .error (.reported ("Cannot read schema: " ++ e.message))
  | .error e => .error (.fatal (.file e))
  | .ok bytes =>
    match decodeText bytes with
    | .error f => .error (.reported ("Cannot read schema: " ++ f.message))
    | .ok cs => .ok (String.ofList cs)

theorem run_readSchema (d : Disk) (p : Path) :
  d.run (readSchema p) = (textOfRead (d.read p), d)
  := by
  rw [readSchema, Disk.run_bind, Disk.run_read]
  cases d.read p with
  | error e => cases e <;> rfl
  | ok bytes =>
      dsimp only
      rw [textOfRead]
      cases decodeText bytes <;> rfl

/-- A file that can be read and whose text gives a module is converted by delivering it. -/
theorem run_convert
    {verbose : Bool} {settings : Settings} {output input : Path} {d : Disk} {text : String}
    {events : List Event} {code : String} (hread : textOfRead (d.read input) = .ok text)
    (hgenerate : (Source.text text).generate conversionCalls input.moduleName settings.extras
      = (events, .ok code)) :
  d.run (convert verbose settings (some output) input)
    = let run := d.run (deliver verbose settings output input.moduleName code)
      ((Transcript.ofEvents verbose [.converting input.text input.moduleName] ++
        Transcript.ofEvents verbose events ++ run.1.1, run.1.2), run.2)
  := by
  rw [convert]
  dsimp only
  rw [Disk.run_bind, run_readSchema, hread]
  dsimp only
  rw [hgenerate]
  rfl

/-- The name of a module has no parentheses. -/
theorem isBalanced_moduleName (p : Path) :
  Text.isBalanced p.moduleName
  := Text.isBalanced_iff.mpr (excess_pascal _)

section

variable {calls : Nat} {moduleName text : String} {events : List Event} {s : Schema}

/-- The names in a schema that was read from a text have no parentheses. -/
theorem isBalanced_of_analyze
    (h : (Source.text text).analyze calls moduleName = (events, .ok s)) {n : String}
    (hn : n ∈ s.names) :
  Text.isBalanced n
  := Text.isBalanced_iff.mpr (excess_of_isName (isName_of_analyze h n hn))

theorem checkCode_of_analyze
    {p : Path} (h : (Source.text text).analyze calls p.moduleName = (events, .ok s))
    (extras : Extras) :
  checkCode (s.toModule p.moduleName extras).render = .ok ()
  := by
  apply Schema.checkCode_toModule (isBalanced_moduleName p)
  intro n hn
  exact isBalanced_of_analyze h hn

end

end Command

end ElmSchema
