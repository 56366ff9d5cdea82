import ElmSchema.Proofs.Disk.Recording

/-!
# Runs on disks

What a program gives that runs on a disk, and the disk that it leaves. A look at a path or into
a file leaves the disk as it was. What has been written can be read. A program keeps a property of
disks if the operations in it do.
-/

namespace ElmSchema.Disk

open FileSystem

/-- What a program gives that runs on a disk, and the disk that it leaves. -/
def run {α : Type} (d : Disk) (x : StateM Disk α) : α × Disk :=
  x d

theorem run_pure {α : Type} (d : Disk) (a : α) :
  d.run (pure a) = (a, d)
  := rfl

theorem run_bind {α β : Type} (d : Disk) (x : StateM Disk α) (f : α → StateM Disk β) :
  d.run (x >>= f) = (d.run x).2.run (f (d.run x).1)
  := rfl

theorem run_read (d : Disk) (p : Path) :
  d.run (FileSystem.read p) = (d.read p, d)
  := rfl

theorem run_write (d : Disk) (p : Path) (bytes : List UInt8) :
  d.run (FileSystem.write p bytes) = d.write p bytes
  := rfl

theorem run_createTemporary (d : Disk) (directory : Path) (before after : LooseText) :
  d.run (FileSystem.createTemporary directory before after)
    = d.createTemporary directory before after
  := rfl

theorem run_makeDirectory (d : Disk) (p : Path) :
  d.run (makeDirectory p) = d.change [p] fun t => t.makeDirectory p
  := rfl

theorem run_rename (d : Disk) (source target : Path) :
  d.run (rename source target) = d.change [source, target] fun t => t.rename source target
  := rfl

theorem run_remove (d : Disk) (p : Path) :
  d.run (remove p) = d.change [p] fun t => t.removeFile p
  := rfl

/-! ### Looks -/

/-- Whether a path leads to something of a kind, from what the look at it gives. -/
def testKind (test : EntryKind → Bool) : Except FileError EntryKind → Except FileError Bool
  | .ok kind => .ok (test kind)
  | .error (.system ⟨.noEntry, _⟩) => .ok false
  | .error (.system ⟨.notDirectory, _⟩) => .ok false
  | .error (.badPath _) => .ok false
  | .error e => .error e

/-- A test of a path leaves the disk as it was. -/
theorem run_leadsTo (d : Disk) (test : EntryKind → Bool) (p : Path) :
  d.run (leadsTo test p) = (testKind test (d.kindOf p), d)
  := by
  have hlook : d.run (FileSystem.kindOf p) = (d.kindOf p, d) := rfl
  rw [leadsTo, run_bind, hlook]
  cases d.kindOf p with
  | ok kind => rfl
  | error e =>
      cases e with
      | system e =>
          obtain ⟨fault, paths⟩ := e
          cases fault <;> rfl
      | badPath fault => rfl
      | tooDeep => rfl

/-! ### Writing -/

/-- A program keeps a property of disks. -/
def Keeps {α : Type} (P : Disk → Prop) (x : StateM Disk α) : Prop :=
  ∀ d, P d → P (d.run x).2

/-- Each operation that may change a disk keeps a property. -/
structure IsKept (P : Disk → Prop) : Prop where
  makeDirectory : ∀ p, Keeps P (FileSystem.makeDirectory p)
  createTemporary : ∀ directory before after,
    Keeps P (FileSystem.createTemporary directory before after)
  write : ∀ p bytes, Keeps P (FileSystem.write p bytes)
  rename : ∀ source target, Keeps P (FileSystem.rename source target)
  remove : ∀ p, Keeps P (FileSystem.remove p)

namespace Keeps

variable {α β : Type} {P : Disk → Prop}

theorem pure (P : Disk → Prop) (a : α) :
  Keeps P (pure a)
  := fun _ h => h

theorem bind
    {x : StateM Disk α} {f : α → StateM Disk β} (hx : Keeps P x) (hf : ∀ a, Keeps P (f a)) :
  Keeps P (x >>= f)
  := by
  intro d h
  rw [run_bind]
  apply hf _ _ (hx d h)

theorem leadsTo (P : Disk → Prop) (test : EntryKind → Bool) (p : Path) :
  Keeps P (leadsTo test p)
  := by
  intro d h
  rwa [run_leadsTo]

theorem forgiveDirectory (P : Disk → Prop) (p : Path) (e : SystemError) :
  Keeps P (forgiveDirectory p e)
  := by
  apply bind (leadsTo P _ p)
  intro result
  cases result with
  | ok there => cases there <;> apply pure
  | error e => apply pure

theorem ensureDirectory (hmake : ∀ p, Keeps P (makeDirectory p)) (p : Path) :
  Keeps P (ensureDirectory p)
  := by
  apply bind (hmake p)
  intro result
  cases result with
  | ok _ => apply pure
  | error e =>
      cases e with
      | system e =>
          obtain ⟨fault, paths⟩ := e
          cases fault with
          | noEntry => apply pure
          | _ => apply forgiveDirectory
      | badPath fault => apply pure
      | tooDeep => apply pure

theorem makeDirectoriesWithin (hmake : ∀ p, Keeps P (makeDirectory p)) :
  ∀ (depth : Nat) (p : Path), Keeps P (makeDirectoriesWithin depth p)
  | 0, p => pure P _
  | depth + 1, p => by
      apply bind (hmake p)
      intro result
      cases result with
      | ok _ => apply pure
      | error e =>
          cases e with
          | system e =>
              obtain ⟨fault, paths⟩ := e
              cases fault with
              | noEntry =>
                  dsimp only
                  split
                  · apply pure
                  · apply bind (makeDirectoriesWithin hmake depth p.parent)
                    intro made
                    cases made with
                    | ok _ => apply ensureDirectory hmake
                    | error e => apply pure
              | _ => apply forgiveDirectory
          | badPath fault => apply pure
          | tooDeep => apply pure

end Keeps

end ElmSchema.Disk
