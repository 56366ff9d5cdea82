import ElmSchema.FileSystem

/-!
# Directory trees

A tree is a file, or a directory with its entries in the order in which it lists them. A new
entry is put in front of the first one with a greater name, so that entries in increasing
order of their names stay in this order. A location is the list of names that lead to a part
of a tree from the top. What is done at a location recurses on the location, not on the tree.
-/

namespace ElmSchema

/-- A tree of directories and files. -/
inductive Tree where
  | file (bytes : List UInt8)
  | directory (entries : List (LooseText × Tree))
deriving Repr

namespace Tree

/-- The tree of an empty directory. -/
def empty : Tree :=
  .directory []

/-- The kind of what lies at the top. -/
def kind : Tree → EntryKind
  | .file _ => .file
  | .directory _ => .directory

/-- The entry of a directory that has a name. -/
def child? (name : LooseText) : Tree → Option Tree
  | .file _ => none
  | .directory entries => (entries.find? fun x => x.1 == name).map Prod.snd

/-- The part of a tree at a location. -/
def get? (t : Tree) : List LooseText → Option Tree
  | [] => some t
  | name :: rest => (t.child? name).bind fun c => c.get? rest

/-- Entries with a further one in its place. -/
def insertEntry (name : LooseText) (t : Tree) :
    List (LooseText × Tree) → List (LooseText × Tree)
  | [] => [(name, t)]
  | x :: rest =>
    if x.1 = name then (name, t) :: rest
    else if x.1 < name then x :: insertEntry name t rest
    else (name, t) :: x :: rest

/-- Entries without those of a name. -/
def eraseEntry (name : LooseText) (entries : List (LooseText × Tree)) :
    List (LooseText × Tree) :=
  entries.filter fun x => x.1 != name

/-- A tree in which the entries of the directory at a location have changed. -/
def changeAt (f : List (LooseText × Tree) → List (LooseText × Tree)) :
    List LooseText → Tree → Tree
  | _, .file bytes => .file bytes
  | [], .directory entries => .directory (f entries)
  | name :: rest, .directory entries =>
    .directory (entries.map fun x => if x.1 == name then (x.1, changeAt f rest x.2) else x)

/-- The longest name in bytes. -/
def maxNameSize : Nat :=
  255

/-- The longest path in bytes. -/
def maxPathSize : Nat :=
  4095

/-- Whether a path is too long to be looked at. -/
def isOversize (p : Path) : Bool :=
  maxPathSize < p.looseText.byteSize

/-- A place in a tree: the part that lies there, and the names that lead to it together with
the directories they were found in, from the inside to the outside. -/
structure Place where
  tree : Tree
  trail : List (LooseText × Tree) := []

namespace Place

/-- The location of a place. -/
def location (p : Place) : List LooseText :=
  (p.trail.map Prod.fst).reverse

/-- The directory that a place lies in. The top lies in itself. -/
def up (p : Place) : Place :=
  match p.trail with
  | [] => p
  | (_, t) :: rest => ⟨t, rest⟩

/-- The place that names lead to from a place. -/
def walk : Place → List LooseText → Except SystemFault Place
  | here, [] => .ok here
  | here, name :: rest =>
    match here.tree with
    | .file _ => .error .notDirectory
    | .directory _ =>
      if name == Path.up then here.up.walk rest
      else if maxNameSize < name.byteSize then .error .nameTooLong
      else
        match here.tree.child? name with
        | none => .error .noEntry
        | some t => walk ⟨t, (name, here.tree) :: here.trail⟩ rest

end Place

/-- The part of a tree that a path leads to. -/
def find (t : Tree) (p : Path) : Except SystemFault Tree :=
  if isOversize p then .error .nameTooLong
  else do
    let place ← Place.walk ⟨t, []⟩ p.names
    return place.tree

/-- A slot for an entry: the location of a directory, and a name in it. -/
structure Slot where
  directory : List LooseText
  name : LooseText
deriving DecidableEq, Repr

/-- What lies in a slot. -/
def entry? (t : Tree) (s : Slot) : Option Tree :=
  t.get? (s.directory ++ [s.name])

/-- A tree with an entry in a slot. -/
def insert (t : Tree) (s : Slot) (e : Tree) : Tree :=
  changeAt (insertEntry s.name e) s.directory t

/-- A tree without the entry in a slot. -/
def erase (t : Tree) (s : Slot) : Tree :=
  changeAt (eraseEntry s.name) s.directory t

/-- The slot that a path names, provided that its last part is a name. The directory of the
slot has to be there. Where the path ends in no name, the fault is `unnamed`. -/
def slot (t : Tree) (unnamed : SystemFault) (p : Path) : Except SystemFault Slot :=
  if isOversize p then .error .nameTooLong
  else
    match p.names.getLast? with
    | none => .error unnamed
    | some name => do
      let place ← Place.walk ⟨t, []⟩ p.names.dropLast
      match place.tree with
      | .file _ => .error .notDirectory
      | .directory _ =>
        if name == Path.up then .error unnamed
        else if maxNameSize < name.byteSize then .error .nameTooLong
        else .ok ⟨place.location, name⟩

/-- A tree with a new entry. -/
def create (t : Tree) (p : Path) (e : Tree) : Except SystemFault Tree := do
  let s ← t.slot .alreadyThere p
  match t.entry? s with
  | some _ => .error .alreadyThere
  | none => .ok (t.insert s e)

/-- A tree with a new directory. -/
def makeDirectory (t : Tree) (p : Path) : Except SystemFault Tree :=
  t.create p empty

/-- A tree with a new empty file. -/
def createFile (t : Tree) (p : Path) : Except SystemFault Tree :=
  t.create p (.file [])

/-- A tree in which a file has new contents. -/
def writeFile (t : Tree) (p : Path) (bytes : List UInt8) : Except SystemFault Tree := do
  let s ← t.slot .isDirectory p
  match t.entry? s with
  | some (.directory _) => .error .isDirectory
  | _ => .ok (t.insert s (.file bytes))

/-- Whether an entry may take the place of another one. Only an empty directory makes way,
and only for a directory. -/
def mayReplace : Tree → Option Tree → Except SystemFault Unit
  | _, none => .ok ()
  | .file _, some (.file _) => .ok ()
  | .file _, some (.directory _) => .error .isDirectory
  | .directory _, some (.file _) => .error .notDirectory
  | .directory _, some (.directory entries) =>
    if entries.isEmpty then .ok () else .error .notEmpty

/-- A tree in which an entry has moved to another path. -/
def rename (t : Tree) (source target : Path) : Except SystemFault Tree := do
  let s ← t.slot .busy source
  let r ← t.slot .busy target
  match t.entry? s with
  | none => .error .noEntry
  | some e =>
    if s = r then .ok t
    else do
      mayReplace e (t.entry? r)
      .ok ((t.erase s).insert r e)

/-- A tree without a file. -/
def removeFile (t : Tree) (p : Path) : Except SystemFault Tree := do
  let s ← t.slot .isDirectory p
  match t.entry? s with
  | none => .error .noEntry
  | some (.directory _) => .error .isDirectory
  | some (.file _) => .ok (t.erase s)

end Tree

end ElmSchema
