import ElmSchema.Disk.Basic
import ElmSchema.Proofs.Disk.Tree

/-!
# Recorded runs

A recording is a disk together with the operations that have been performed on it, each with
its error if it failed. A recording serves as a file system just as its disk does, so a
program that runs on a recording leaves behind what it did. What it gives, and the disk that
it leaves, are those of the run on the disk alone.

For each operation on a disk there is one lemma with its outcomes: either it does what its
name says, or it fails and leaves the tree as it was. A write that fails may leave some bytes
in the file.
-/

namespace ElmSchema

/-- An operation on a disk with the paths it is applied to. An operation that makes a
temporary file comes with the path that it gives. -/
inductive Operation where
  | look (p : Path)
  | makeDirectory (p : Path)
  | createTemporary (directory : Path) (made : Option Path)
  | write (p : Path)
  | rename (source target : Path)
  | remove (p : Path)
deriving DecidableEq, Repr

/-- An operation that has been performed, and its error if it failed. -/
structure Step where
  operation : Operation
  error? : Option FileError
deriving DecidableEq, Repr

/-- A disk and the steps performed on it, in their order. -/
structure Recording where
  disk : Disk
  steps : List Step := []

namespace Recording

/-- The step of an operation that gave a result. -/
def stepOf {α : Type} (operation : Operation) : Except FileError α → Step
  | .ok _ => ⟨operation, none⟩
  | .error e => ⟨operation, some e⟩

/-- Run an operation on the disk of a recording, and note it down. -/
def record {α : Type} (operation : Except FileError α → Operation)
    (x : StateM Disk (Except FileError α)) : StateM Recording (Except FileError α) := fun r =>
  ((x r.disk).1, ⟨(x r.disk).2, r.steps ++ [stepOf (operation (x r.disk).1) (x r.disk).1]⟩)

/-- A recording is a file system. -/
instance : FileSystem (StateM Recording) where
  workingDirectory := fun r => (r.disk.home, r)
  kindOf p := record (fun _ => .look p) (FileSystem.kindOf p)
  list p := record (fun _ => .look p) (FileSystem.list p)
  read p := record (fun _ => .look p) (FileSystem.read p)
  makeDirectory p := record (fun _ => .makeDirectory p) (FileSystem.makeDirectory p)
  createTemporary directory before after :=
    record (fun result => .createTemporary directory result.toOption)
      (FileSystem.createTemporary directory before after)
  write p bytes := record (fun _ => .write p) (FileSystem.write p bytes)
  rename source target := record (fun _ => .rename source target) (FileSystem.rename source target)
  remove p := record (fun _ => .remove p) (FileSystem.remove p)

end Recording

/-! ### Runs -/

namespace Recording

/-- What a program gives that runs on a recording, and the recording that it leaves. -/
def run {α : Type} (r : Recording) (x : StateM Recording α) : α × Recording :=
  x r

theorem run_pure {α : Type} (r : Recording) (a : α) :
  r.run (pure a) = (a, r)
  := rfl

theorem run_bind
    {α β : Type} (r : Recording) (x : StateM Recording α) (f : α → StateM Recording β) :
  r.run (x >>= f) = (r.run x).2.run (f (r.run x).1)
  := rfl

end Recording

/-- A run on recordings follows a run on disks: it gives the same, and leaves the same
disk. -/
def Follows {α : Type} (x : StateM Recording α) (y : StateM Disk α) : Prop :=
  ∀ r : Recording, y r.disk = ((r.run x).1, (r.run x).2.disk)

namespace Follows

theorem pure {α : Type} (a : α) :
  Follows (Pure.pure a) (Pure.pure a)
  := by
  intro r
  rfl

theorem bind
    {α β : Type} {x : StateM Recording α} {y : StateM Disk α} {f : α → StateM Recording β}
    {g : α → StateM Disk β} (hx : Follows x y) (hf : ∀ a, Follows (f a) (g a)) :
  Follows (x >>= f) (y >>= g)
  := by
  intro r
  have hy : (y >>= g) r.disk = g (y r.disk).1 (y r.disk).2 := rfl
  rw [hy, hx r, Recording.run_bind]
  apply hf

theorem record
    {α : Type} (operation : Except FileError α → Operation)
    (x : StateM Disk (Except FileError α)) :
  Follows (Recording.record operation x) x
  := by
  intro r
  rfl

open FileSystem

theorem leadsTo (test : EntryKind → Bool) (p : Path) :
  Follows (leadsTo test p) (leadsTo test p)
  := by
  apply bind (record _ _)
  intro result
  cases result with
  | ok kind => apply pure
  | error e =>
      cases e with
      | system e =>
          obtain ⟨fault, paths⟩ := e
          cases fault <;> apply pure
      | badPath fault => apply pure
      | tooDeep => apply pure

theorem forgiveDirectory (p : Path) (e : SystemError) :
  Follows (forgiveDirectory p e) (forgiveDirectory p e)
  := by
  apply bind (leadsTo _ p)
  intro result
  cases result with
  | ok there => cases there <;> apply pure
  | error e => apply pure

theorem ensureDirectory (p : Path) :
  Follows (ensureDirectory p) (ensureDirectory p)
  := by
  apply bind (record _ _)
  intro result
  cases result with
  | ok _ => apply pure
  | error e =>
      cases e with
      | system e =>
          obtain ⟨fault, paths⟩ := e
          cases fault with
          | noEntry => apply pure
          | _ => apply forgiveDirectory
      | badPath fault => apply pure
      | tooDeep => apply pure

theorem makeDirectoriesWithin :
  ∀ (depth : Nat) (p : Path),
    Follows (makeDirectoriesWithin depth p) (makeDirectoriesWithin depth p)
  | 0, p => pure _
  | depth + 1, p => by
      apply bind (record _ _)
      intro result
      cases result with
      | ok _ => apply pure
      | error e =>
          cases e with
          | system e =>
              obtain ⟨fault, paths⟩ := e
              cases fault with
              | noEntry =>
                  dsimp only
                  split
                  · apply pure
                  · apply bind (makeDirectoriesWithin depth p.parent)
                    intro made
                    cases made with
                    | ok _ => apply ensureDirectory
                    | error e => apply pure
              | _ => apply forgiveDirectory
          | badPath fault => apply pure
          | tooDeep => apply pure

end Follows

/-! ### Outcomes of operations -/

namespace Disk

theorem nextFailure_tree (d : Disk) :
  d.nextFailure.2.tree = d.tree
  := by
  obtain ⟨tree, home, tags, plan⟩ := d
  cases plan <;> rfl

theorem observe_eq_ok
    {α : Type} {paths : List Path} {result : Except SystemFault α} {x : α}
    (h : observe paths result = .ok x) :
  (∀ p ∈ paths, p.fault? = none) ∧ result = .ok x
  := by
  unfold observe at h
  split at h
  · simp at h
  · rename_i hfault
    use List.findSome?_eq_none_iff.mp hfault
    cases result with
    | ok y => simpa using h
    | error fault => simp at h

theorem observe_of_fault?_eq_none
    {α : Type} {p : Path} (hfault : p.fault? = none) (x : α) :
  observe [p] (.ok x) = .ok x
  := by
  simp [observe, hfault]

theorem read_eq_ok
    {d : Disk} {p : Path} {bytes : List UInt8} (hfault : p.fault? = none)
    (hfind : d.tree.find p = .ok (.file bytes)) :
  d.read p = .ok bytes
  := by
  rw [read, hfind]
  apply observe_of_fault?_eq_none hfault

/-- A change settles with a new tree, or fails and the tree stays. -/
theorem settle_cases (d : Disk) (paths : List Path) (result : Except SystemFault Tree) :
  (∃ d', d.settle paths result = (.ok (), d') ∧ result = .ok d'.tree ∧
      ∀ p ∈ paths, p.fault? = none) ∨
    ∃ e, d.settle paths result = (.error e, d)
  := by
  unfold settle
  cases hresult : observe paths result with
  | error e =>
      right
      use e
  | ok t =>
      obtain ⟨hfault, rfl⟩ := observe_eq_ok hresult
      left
      use { d with tree := t }

theorem settle_error (d : Disk) (paths : List Path) (fault : SystemFault) :
  ∃ e, d.settle paths (.error fault) = (.error e, d)
  := by
  rcases d.settle_cases paths (.error fault) with ⟨d', -, hresult, -⟩ | h
  · simp at hresult
  · apply h

/-- The tree of a disk changes as told, or the change fails and the tree stays. -/
theorem change_cases (d : Disk) (paths : List Path) (f : Tree → Except SystemFault Tree) :
  (∃ d', d.change paths f = (.ok (), d') ∧ f d.tree = .ok d'.tree ∧
      ∀ p ∈ paths, p.fault? = none) ∨
    ∃ e d', d.change paths f = (.error e, d') ∧ d'.tree = d.tree
  := by
  obtain ⟨next, hnext⟩ : ∃ next, next = d.nextFailure := ⟨_, rfl⟩
  have htree : next.2.tree = d.tree := hnext ▸ d.nextFailure_tree
  unfold change
  rw [← hnext, ← htree]
  obtain ⟨failure?, d⟩ := next
  cases failure? with
  | some failure =>
      obtain ⟨e, h⟩ := d.settle_error paths failure.fault
      right
      use e, d, h
  | none =>
      rcases d.settle_cases paths (f d.tree) with h | ⟨e, h⟩
      · left
        apply h
      · right
        use e, d, h

/-- A file gets its contents, or the write fails and the file may have got others. -/
theorem write_cases (d : Disk) (p : Path) (bytes : List UInt8) :
  (∃ d', d.write p bytes = (.ok (), d') ∧ d.tree.writeFile p bytes = .ok d'.tree) ∨
    ∃ e d', d.write p bytes = (.error e, d') ∧
      (d'.tree = d.tree ∨ ∃ others, d.tree.writeFile p others = .ok d'.tree)
  := by
  obtain ⟨next, hnext⟩ : ∃ next, next = d.nextFailure := ⟨_, rfl⟩
  have htree : next.2.tree = d.tree := hnext ▸ d.nextFailure_tree
  unfold write
  rw [← hnext, ← htree]
  obtain ⟨failure?, d⟩ := next
  cases failure? with
  | some failure =>
      let others := bytes.take failure.written
      obtain ⟨e, h⟩ :=
        settle_error { d with tree := partlyWritten d.tree p others } [p] failure.fault
      right
      refine ⟨e, _, h, ?_⟩
      dsimp only
      unfold partlyWritten
      split
      · rename_i t ht
        right
        use others, (observe_eq_ok ht).2
      · left
        rfl
  | none =>
      rcases d.settle_cases [p] (d.tree.writeFile p bytes) with ⟨d', h, hwrite, -⟩ | ⟨e, h⟩
      · left
        use d', h
      · right
        use e, d, h
        left
        rfl

/-- An empty file with one of the names is made, or none is and the tree stays. -/
theorem createWith_cases (d : Disk) (directory : Path) (before after : LooseText) :
  ∀ (tags : List String),
    (∃ p d', d.createWith directory before after tags = (.ok p, d') ∧ p.fault? = none ∧
        d.tree.createFile p = .ok d'.tree) ∨
      ∃ e, d.createWith directory before after tags = (.error e, d)
  | [] => .inr ⟨_, rfl⟩
  | tag :: tags => by
      simp only [createWith]
      split
      · rename_i t ht
        obtain ⟨hfault, hcreate⟩ := observe_eq_ok ht
        left
        use directory.child (before ++ LooseText.ofString tag ++ after), { d with tree := t }, rfl,
          hfault _ List.mem_cons_self
      · apply createWith_cases d directory before after tags
      · rename_i e _ _
        right
        use e

/-- An empty file with a new name is made, or none is and the tree stays. -/
theorem createTemporary_cases (d : Disk) (directory : Path) (before after : LooseText) :
  (∃ p d', d.createTemporary directory before after = (.ok p, d') ∧ p.fault? = none ∧
      d.tree.createFile p = .ok d'.tree) ∨
    ∃ e d', d.createTemporary directory before after = (.error e, d') ∧ d'.tree = d.tree
  := by
  obtain ⟨next, hnext⟩ : ∃ next, next = d.nextFailure := ⟨_, rfl⟩
  have htree : next.2.tree = d.tree := hnext ▸ d.nextFailure_tree
  unfold createTemporary
  rw [← hnext, ← htree]
  obtain ⟨failure?, d⟩ := next
  cases failure? with
  | some failure =>
      right
      use .system ⟨failure.fault, [directory]⟩, d
  | none =>
      rcases d.createWith_cases directory.normalize before after d.tags with h | ⟨e, h⟩
      · left
        apply h
      · right
        use e, d, h

end Disk

namespace Recording

open FileSystem

theorem run_record
    {α : Type} (operation : Except FileError α → Operation)
    {x : StateM Disk (Except FileError α)} {r : Recording} {result : Except FileError α} {d : Disk}
    (h : x r.disk = (result, d)) :
  r.run (record operation x) = (result, ⟨d, r.steps ++ [stepOf (operation result) result]⟩)
  := by
  rw [run, record, h]

/-- A look changes no disk. -/
theorem run_kindOf (p : Path) (r : Recording) :
  r.run (kindOf p)
    = (r.disk.kindOf p, ⟨r.disk, r.steps ++ [stepOf (.look p) (r.disk.kindOf p)]⟩)
  := rfl

theorem makeDirectory_cases (p : Path) (r : Recording) :
  (∃ d, r.run (makeDirectory p) = (.ok (), ⟨d, r.steps ++ [⟨.makeDirectory p, none⟩]⟩) ∧
      r.disk.tree.makeDirectory p = .ok d.tree) ∨
    ∃ e d, r.run (makeDirectory p) = (.error e, ⟨d, r.steps ++ [⟨.makeDirectory p, some e⟩]⟩) ∧
      d.tree = r.disk.tree
  := by
  rcases r.disk.change_cases [p] (fun t => t.makeDirectory p) with
    ⟨d, h, hmade, -⟩ | ⟨e, d, h, htree⟩
  · left
    use d, run_record _ h
  · right
    use e, d, run_record _ h

theorem createTemporary_cases (directory : Path) (before after : LooseText) (r : Recording) :
  (∃ p d, r.run (createTemporary directory before after)
        = (.ok p, ⟨d, r.steps ++ [⟨.createTemporary directory (some p), none⟩]⟩) ∧
      p.fault? = none ∧ r.disk.tree.createFile p = .ok d.tree) ∨
    ∃ e d, r.run (createTemporary directory before after)
        = (.error e, ⟨d, r.steps ++ [⟨.createTemporary directory none, some e⟩]⟩) ∧
      d.tree = r.disk.tree
  := by
  rcases r.disk.createTemporary_cases directory before after with
    ⟨p, d, h, hfault, hcreate⟩ | ⟨e, d, h, htree⟩
  · left
    use p, d, run_record _ h
  · right
    use e, d, run_record _ h

theorem write_cases (p : Path) (bytes : List UInt8) (r : Recording) :
  (∃ d, r.run (write p bytes) = (.ok (), ⟨d, r.steps ++ [⟨.write p, none⟩]⟩) ∧
      r.disk.tree.writeFile p bytes = .ok d.tree) ∨
    ∃ e d, r.run (write p bytes) = (.error e, ⟨d, r.steps ++ [⟨.write p, some e⟩]⟩) ∧
      (d.tree = r.disk.tree ∨ ∃ others, r.disk.tree.writeFile p others = .ok d.tree)
  := by
  rcases r.disk.write_cases p bytes with ⟨d, h, hwrite⟩ | ⟨e, d, h, htree⟩
  · left
    use d, run_record _ h
  · right
    use e, d, run_record _ h

theorem rename_cases (source target : Path) (r : Recording) :
  (∃ d, r.run (rename source target) = (.ok (), ⟨d, r.steps ++ [⟨.rename source target, none⟩]⟩) ∧
      r.disk.tree.rename source target = .ok d.tree ∧ target.fault? = none) ∨
    ∃ e d, r.run (rename source target)
        = (.error e, ⟨d, r.steps ++ [⟨.rename source target, some e⟩]⟩) ∧
      d.tree = r.disk.tree
  := by
  rcases r.disk.change_cases [source, target] (fun t => t.rename source target) with
    ⟨d, h, hmoved, hfault⟩ | ⟨e, d, h, htree⟩
  · left
    use d, run_record _ h, hmoved, hfault target (by simp)
  · right
    use e, d, run_record _ h

theorem remove_cases (p : Path) (r : Recording) :
  (∃ d, r.run (remove p) = (.ok (), ⟨d, r.steps ++ [⟨.remove p, none⟩]⟩) ∧
      r.disk.tree.removeFile p = .ok d.tree) ∨
    ∃ e d, r.run (remove p) = (.error e, ⟨d, r.steps ++ [⟨.remove p, some e⟩]⟩) ∧
      d.tree = r.disk.tree
  := by
  rcases r.disk.change_cases [p] (fun t => t.removeFile p) with ⟨d, h, hgone, -⟩ | ⟨e, d, h, htree⟩
  · left
    use d, run_record _ h
  · right
    use e, d, run_record _ h

end Recording

end ElmSchema
