import ElmSchema.Discovery
import ElmSchema.Proofs.Disk.Run
import ElmSchema.Proofs.Path
import Mathlib.Data.List.Basic

/-!
# The schema files of a folder

In whatever order a folder lists its entries, its schema files come in the increasing order of
their names. They are the entries that are files and have one of the suffixes.
-/

namespace ElmSchema

open FileSystem

/-! ### Files among entries -/

/-- Whether a path leads to a file with a suffix of schema files. -/
def Disk.isSchemaFile (d : Disk) (p : Path) : Bool :=
  [(".graphql" : LooseText), ".gql"].contains p.suffix && decide (d.kindOf p = .ok .file)

/-- The schema files among the entries of a folder. -/
def Disk.schemaFilesIn (d : Disk) (folder : Path) (names : List LooseText) : List Path :=
  (names.map folder.child).filter d.isSchemaFile

namespace Disk

variable {d : Disk}

theorem run_filesAmong :
  ∀ {paths : List Path}, (∀ p ∈ paths, ∃ kind, d.kindOf p = .ok kind) →
    d.run (filesAmong paths) = (.ok (paths.filter fun p => d.kindOf p = .ok .file), d)
  | [], _ => rfl
  | p :: rest, h => by
      rw [List.forall_mem_cons] at h
      obtain ⟨⟨kind, hkind⟩, hrest⟩ := h
      rw [filesAmong, run_bind, isFile, run_leadsTo, hkind]
      dsimp only [testKind]
      rw [run_bind, run_filesAmong hrest, List.filter_cons, hkind]
      cases kind <;> rfl

/-- The schema files of a folder are found in the order of their names. -/
theorem exists_schemaFiles
    {folder : Path} {names : List LooseText} (hlist : d.list folder = .ok names)
    (hlook : ∀ name ∈ names, ∃ kind, d.kindOf (folder.child name) = .ok kind) :
  ∃ files, d.run (schemaFiles folder defaultExtensions) = (.ok files, d) ∧
    files.Perm (d.schemaFilesIn folder names) ∧
    files.Pairwise fun p q => p.name ≤ q.name
  := by
  let sorted := names.mergeSort fun a b => decide (a ≤ b)
  have hperm : sorted.Perm names := List.mergeSort_perm _ _
  have hlook' : ∀ p ∈ sorted.map folder.child, ∃ kind, d.kindOf p = .ok kind := by
    intro p hp
    obtain ⟨name, hname, rfl⟩ := List.mem_map.mp hp
    exact hlook name (hperm.mem_iff.mp hname)
  have hlist' : d.run (FileSystem.list folder) = (.ok names, d) := congrArg (·, d) hlist
  have hsuffixes : suffixesOf defaultExtensions = .ok [(".graphql" : LooseText), ".gql"] := rfl
  use (sorted.map folder.child).filter d.isSchemaFile
  refine ⟨?_, (hperm.map _).filter _, ?_⟩
  · rw [schemaFiles, hsuffixes]
    dsimp only
    rw [run_bind, hlist']
    dsimp only
    rw [run_bind, run_filesAmong hlook']
    dsimp only
    rw [run_pure, List.filter_filter]
    rfl
  · apply List.Pairwise.filter
    rw [List.pairwise_map]
    have hsorted : sorted.Pairwise fun a b => decide (a ≤ b) = true := by
      apply List.pairwise_mergeSort
      · intro a b c hab hbc
        rw [decide_eq_true_eq] at hab hbc ⊢
        exact LooseText.le_trans hab hbc
      · intro a b
        simp only [Bool.or_eq_true, decide_eq_true_eq]
        exact LooseText.le_total a b
    apply hsorted.imp
    intro a b hab
    rw [Path.name_child, Path.name_child]
    exact of_decide_eq_true hab

end Disk

end ElmSchema
