import ElmSchema.Disk.Tree

/-!
# Disks

A disk is a tree of directories and files in memory that serves as a file system. The names
of temporary files are taken from a supply, and the first that is free is used. Operations
that change the disk can be made to fail: each takes the next entry of a plan, and an entry
that holds a failure makes the operation fail.
-/

namespace ElmSchema

/-- A failure to be met: its reason, and how many bytes reach the file if it hits a
write. -/
structure Failure where
  fault : SystemFault
  written : Nat := 0
deriving DecidableEq, Repr

/-- A disk. -/
structure Disk where
  tree : Tree
  /-- The directory that relative paths start from. -/
  home : Path
  /-- The middle parts of names for temporary files. -/
  tags : List String
  /-- Whether the coming operations fail. -/
  plan : List (Option Failure) := []
deriving Repr

namespace Disk

/-- The failure of the next operation, and the disk after its entry in the plan is used
up. -/
def nextFailure (d : Disk) : Option Failure × Disk :=
  match d.plan with
  | [] => (none, d)
  | next :: rest => (next, { d with plan := rest })

/-- The result of looking at paths. Nothing is there under a path that names nothing. -/
def observe {α : Type} (paths : List Path) (result : Except SystemFault α) :
    Except FileError α :=
  match paths.findSome? Path.fault? with
  | some f => .error (.badPath f)
  | none =>
    match result with
    | .ok x => .ok x
    | .error fault => .error (.system ⟨fault, paths⟩)

/-- The disk after a change of its tree, if there is one. -/
def settle (d : Disk) (paths : List Path) (result : Except SystemFault Tree) :
    Except FileError Unit × Disk :=
  match observe paths result with
  | .ok t => (.ok (), { d with tree := t })
  | .error e => (.error e, d)

/-- Change the tree of a disk, unless the plan has a failure. -/
def change (d : Disk) (paths : List Path) (f : Tree → Except SystemFault Tree) :
    Except FileError Unit × Disk :=
  match d.nextFailure with
  | (some failure, d) => d.settle paths (.error failure.fault)
  | (none, d) => d.settle paths (f d.tree)

/-- What a path leads to. -/
def kindOf (d : Disk) (p : Path) : Except FileError EntryKind :=
  observe [p] do
    return (← d.tree.find p).kind

/-- The names in a directory. -/
def list (d : Disk) (p : Path) : Except FileError (List LooseText) :=
  observe [p] do
    match ← d.tree.find p with
    | .directory entries => .ok (entries.map Prod.fst)
    | .file _ => .error .notDirectory

/-- The contents of a file. -/
def read (d : Disk) (p : Path) : Except FileError (List UInt8) :=
  observe [p] do
    match ← d.tree.find p with
    | .file bytes => .ok bytes
    | .directory _ => .error .isDirectory

/-- The tree after a write that fails, in which some bytes have reached the file. -/
def partlyWritten (t : Tree) (p : Path) (bytes : List UInt8) : Tree :=
  match observe [p] (t.writeFile p bytes) with
  | .ok t => t
  | .error _ => t

/-- Write a file. A failure of the plan still leaves the bytes that reached the file. -/
def write (d : Disk) (p : Path) (bytes : List UInt8) : Except FileError Unit × Disk :=
  match d.nextFailure with
  | (some failure, d) =>
    { d with tree := partlyWritten d.tree p (bytes.take failure.written) }.settle [p]
      (.error failure.fault)
  | (none, d) => d.settle [p] (d.tree.writeFile p bytes)

/-- Make an empty file with the first free name among those made with the given tags. -/
def createWith (d : Disk) (directory : Path) (before after : LooseText) :
    List String → Except FileError Path × Disk
  | [] => (.error (.system ⟨.noTemporaryName, []⟩), d)
  | tag :: tags =>
    let p := directory.child (before ++ LooseText.ofString tag ++ after)
    match observe [p] (d.tree.createFile p) with
    | .ok t => (.ok p, { d with tree := t })
    | .error (.system ⟨.alreadyThere, _⟩) => createWith d directory before after tags
    | .error e => (.error e, d)

/-- Make an empty file with a new name. -/
def createTemporary (d : Disk) (directory : Path) (before after : LooseText) :
    Except FileError Path × Disk :=
  match d.nextFailure with
  | (some failure, d) => (.error (.system ⟨failure.fault, [directory]⟩), d)
  | (none, d) => createWith d directory.normalize before after d.tags

/-- A disk is a file system. -/
instance : FileSystem (StateM Disk) where
  workingDirectory := fun d => (d.home, d)
  kindOf p := fun d => (d.kindOf p, d)
  list p := fun d => (d.list p, d)
  read p := fun d => (d.read p, d)
  makeDirectory p := fun d => d.change [p] fun t => t.makeDirectory p
  createTemporary directory before after := fun d => d.createTemporary directory before after
  write p bytes := fun d => d.write p bytes
  rename source target := fun d => d.change [source, target] fun t => t.rename source target
  remove p := fun d => d.change [p] fun t => t.removeFile p

end Disk

end ElmSchema
