import ElmSchema.Discovery
import ElmSchema.Proofs.Disk.Run
import ElmSchema.Proofs.Name.Alphabet
import ElmSchema.Proofs.Path

/-!
# Destinations in a directory

A module that is sent to a directory goes to a file named after the module, with the extension
behind its name. The name of a module holds letters and digits only, so it can neither lead out of
the directory nor vanish from the path, whatever the path of the schema file is. An extension
without a slash adds nothing that could, unless the name is empty and the extension alone is one of
the texts that stand for no entry.
-/

namespace ElmSchema

open FileSystem

/-- The name of a module holds letters and digits only. -/
theorem Path.isAlphanum_moduleName (p : Path) :
  ∀ c ∈ p.moduleName.toList, c.isAlphanum
  := fun _ => Name.isAlphanum_of_mem_pascal

/-- The texts that name no entry of a directory: none at all, the directory itself and the one
above. -/
def Path.dots : List LooseText :=
  [[], here, up]

section

variable {name : String} {extension : LooseText}

/-- A character that is no letter or digit comes from the extension if at all. -/
theorem LooseText.not_mem_ofString_append
    (hname : ∀ c ∈ name.toList, c.isAlphanum) {c : Char} (hc : c.isAlphanum = false)
    (hextension : LooseChar.char c ∉ extension) :
  LooseChar.char c ∉ LooseText.ofString name ++ extension
  := by
  rw [List.mem_append, not_or]
  use ?_, hextension
  intro hmem
  obtain ⟨x, hx, heq⟩ := List.mem_map.mp hmem
  obtain rfl := LooseChar.char.inj heq
  simp [hname x hx] at hc

/-- A name of letters and digits with an extension is no text of dots, unless the name is empty
and the extension is one. -/
theorem LooseText.ofString_append_not_mem_dots
    (hname : ∀ c ∈ name.toList, c.isAlphanum) (hentry : name ≠ "" ∨ extension ∉ Path.dots) :
  LooseText.ofString name ++ extension ∉ Path.dots
  := by
  cases hchars : name.toList with
  | nil =>
      have hempty : name = "" := String.toList_eq_nil_iff.mp hchars
      rw [LooseText.ofString, hchars]
      exact hentry.resolve_left (not_not_intro hempty)
  | cons c rest =>
      have hc : c ≠ '.' := by
        rintro rfl
        have := hname '.' (hchars ▸ List.mem_cons_self)
        revert this
        decide
      simp [LooseText.ofString, hchars, Path.dots, Path.here, Path.up, hc]

end

/-- In a directory, a module goes to the entry that has the name of the module with the extension
behind it. -/
theorem Disk.run_outputFile_of_directory
    {d : Disk} {directory : Path} {moduleName : String} {extension : Json}
    (hdirectory : d.kindOf directory = .ok .directory)
    (hname : ∀ c ∈ moduleName.toList, c.isAlphanum)
    (hslash : LooseChar.char '/' ∉ extension.plainForm)
    (hentry : moduleName ≠ "" ∨ extension.plainForm ∉ Path.dots) :
  d.run (outputFile directory moduleName extension)
    = (.ok (directory.child (LooseText.ofString moduleName ++ extension.plainForm)), d)
  := by
  have hdots := LooseText.ofString_append_not_mem_dots hname hentry
  simp only [Path.dots, List.mem_cons, not_or] at hdots
  rw [outputFile, run_bind, isDirectory, run_leadsTo, hdirectory]
  dsimp only [testKind]
  rw [← Path.join_eq_child _ hdots.1 hdots.2.1]
  · rfl
  · apply LooseText.not_mem_ofString_append hname (by decide) hslash

/-- Modules that are sent to a directory stay in it. The name of the module of a path holds letters
and digits only. With an extension that has no slash and does not stand alone as a text of dots,
the module goes to the entry of the directory that has the name of the module with the extension
behind it. With an extension that is no text of dots, the modules of two paths go to the same file
just if they have the same name. -/
theorem output_stays_in_directory
    {d : Disk} {directory : Path} (hdirectory : d.kindOf directory = .ok .directory)
    {extension : LooseText} (hslash : LooseChar.char '/' ∉ extension) :
  (∀ p : Path, (∀ c ∈ p.moduleName.toList, c.isAlphanum) ∧
    (p.moduleName ≠ "" ∨ extension ∉ Path.dots →
      ∃ target, d.run (outputFile directory p.moduleName (.string extension)) = (.ok target, d) ∧
        target = directory.child (LooseText.ofString p.moduleName ++ extension) ∧
        target.parent = directory ∧
        target.name = LooseText.ofString p.moduleName ++ extension)) ∧
  (extension ∉ Path.dots → ∀ p q : Path,
    (d.run (outputFile directory p.moduleName (.string extension))).1
        = (d.run (outputFile directory q.moduleName (.string extension))).1 ↔
      p.moduleName = q.moduleName)
  := by
  have hrun (p : Path) (hentry : p.moduleName ≠ "" ∨ extension ∉ Path.dots) :
      d.run (outputFile directory p.moduleName (.string extension))
        = (.ok (directory.child (LooseText.ofString p.moduleName ++ extension)), d) :=
    Disk.run_outputFile_of_directory hdirectory p.isAlphanum_moduleName hslash hentry
  constructor
  · intro p
    use p.isAlphanum_moduleName
    intro hentry
    exact ⟨_, hrun p hentry, rfl, Path.parent_child _ _, Path.name_child _ _⟩
  · intro hextension p q
    rw [hrun p (.inr hextension), hrun q (.inr hextension)]
    constructor
    · intro h
      have hname := congrArg Path.name (Except.ok.inj h)
      rw [Path.name_child, Path.name_child] at hname
      exact LooseText.ofString_inj.mp (List.append_cancel_right hname)
    · intro h
      rw [h]

/-- A disk with an empty directory. -/
def bareDisk : Disk where
  tree := .directory [("out", .directory [])]
  home := ⟨"/", []⟩
  tags := []

/-- With the extension `..`, which would lead out of the directory alone, a module goes to an entry
of the directory, and to the same one as another module of that name. A module without a name goes
to a hidden file. -/
theorem output_stays_in_directory_bare :
  bareDisk.kindOf ⟨"/", ["out"]⟩ = .ok .directory ∧
    LooseChar.char '/' ∉ Path.up ∧ LooseChar.char '/' ∉ LooseText.ofString ".elm" ∧
    bareDisk.run (outputFile ⟨"/", ["out"]⟩ (Path.ofText "../a_b.gql").moduleName (.string Path.up))
      = (.ok ⟨"/", ["out", "AB.."]⟩, bareDisk) ∧
    bareDisk.run (outputFile ⟨"/", ["out"]⟩ (Path.ofText "s/__.gql").moduleName (.string ".elm"))
      = (.ok ⟨"/", ["out", ".elm"]⟩, bareDisk) ∧
    (bareDisk.run
        (outputFile ⟨"/", ["out"]⟩ (Path.ofText "../a_b.gql").moduleName (.string ".elm"))).1
      = (bareDisk.run
        (outputFile ⟨"/", ["out"]⟩ (Path.ofText "s/aB.").moduleName (.string ".elm"))).1
  := by
  have hdirectory : bareDisk.kindOf ⟨"/", ["out"]⟩ = .ok .directory := rfl
  have hup : LooseChar.char '/' ∉ Path.up := by decide
  have helm : LooseChar.char '/' ∉ LooseText.ofString ".elm" := by decide
  obtain ⟨htargets, -⟩ := output_stays_in_directory hdirectory hup
  obtain ⟨htargets', hsame⟩ := output_stays_in_directory hdirectory helm
  obtain ⟨_, hrun, rfl, -⟩ := (htargets (Path.ofText "../a_b.gql")).2 (.inl (by decide))
  obtain ⟨_, hrun', rfl, -⟩ := (htargets' (Path.ofText "s/__.gql")).2 (.inr (by decide))
  exact ⟨hdirectory, hup, helm, hrun, hrun', (hsame (by decide) _ _).mpr (by decide)⟩

end ElmSchema
