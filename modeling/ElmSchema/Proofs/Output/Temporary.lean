import ElmSchema.Proofs.Disk.Success
import ElmSchema.Proofs.Output.Atomic

/-!
# Temporary files beside a target

When no failure is planned, the directories on the way to a target can be made or are there, and
a temporary file can be made beside the target as long as one of the names for it is free. It can
be filled, and giving up takes it away, so that all nodes are what they were before it was made.
-/

namespace ElmSchema

open FileSystem

/-! ### Directories that are made -/

/-- A new leaf is found under its path. -/
theorem Tree.find_of_create
    {t t' e : Tree} {p : Path} (he : e.isLeaf) (h : t.create p e = .ok t') :
  ∃ e', t'.find p = .ok e' ∧ e'.node = e.node
  := by
  obtain ⟨⟨s, hs⟩, hnone, hnodes⟩ := create_eq_ok he h
  have hs' : t'.Names p s := by
    apply hs.mono
    intro l hl
    rw [hnodes, if_neg, hl]
    rintro rfl
    simp [hnone] at hl
  have hnode : t'.node? s.location = some e.node := by
    rw [hs.location, hnodes, if_pos rfl]
  obtain ⟨e', hentry, he'⟩ := Option.map_eq_some_iff.mp hnode
  use e', hs'.find_eq_ok hentry

namespace Disk

variable {d d' : Disk} {p : Path}

theorem kindOf_of_makeDirectory (h : d.run (makeDirectory p) = (.ok (), d')) :
  d'.kindOf p = .ok .directory
  := by
  rw [run_makeDirectory] at h
  rcases d.change_cases [p] (fun t => t.makeDirectory p) with
    ⟨d₁, hchange, hmade, hfault⟩ | ⟨e, d₁, hchange, -⟩
  · obtain rfl : d₁ = d' := by simpa [hchange] using h
    obtain ⟨e, hfind, he⟩ := Tree.find_of_create rfl hmade
    obtain ⟨entries, rfl⟩ := Tree.exists_directory_of_node he
    exact kindOf_eq_ok_iff.mpr ⟨hfault p List.mem_cons_self, _, hfind, rfl⟩
  · simp [hchange] at h

theorem kindOf_of_testKind
    {result : Except FileError EntryKind}
    (h : testKind (fun kind => kind == .directory) result = .ok true) :
  result = .ok .directory
  := by
  unfold testKind at h
  split at h
  · simpa using h
  all_goals simp at h

/-- An error about a path is forgiven only if the path leads to a directory. -/
theorem kindOf_of_forgiveDirectory
    {e : SystemError} (h : d.run (forgiveDirectory p e) = (.ok (), d')) :
  d'.kindOf p = .ok .directory
  := by
  rw [forgiveDirectory, run_bind, isDirectory, run_leadsTo] at h
  dsimp only at h
  split at h
  · rename_i hkind
    obtain rfl : d = d' := by simpa [run_pure] using h
    apply kindOf_of_testKind hkind
  · simp [run_pure] at h
  · simp [run_pure] at h

theorem kindOf_of_ensureDirectory (h : d.run (ensureDirectory p) = (.ok (), d')) :
  d'.kindOf p = .ok .directory
  := by
  rw [ensureDirectory, run_bind] at h
  obtain ⟨⟨made, d₁⟩, hmade⟩ : ∃ run, d.run (makeDirectory p) = run := ⟨_, rfl⟩
  rw [hmade] at h
  dsimp only at h
  split at h
  · obtain rfl : d₁ = d' := by simpa [run_pure] using h
    apply kindOf_of_makeDirectory hmade
  · split at h
    · simp [run_pure] at h
    · apply kindOf_of_forgiveDirectory h
  · simp [run_pure] at h

/-- A directory that has been made with the directories it lies in is there. -/
theorem kindOf_of_makeDirectories
    {calls : Nat} (h : d.run (makeDirectories calls p) = (.ok (), d')) :
  d'.kindOf p = .ok .directory
  := by
  have hcalls : maxNewDirectories calls ≠ 0 := by
    intro hzero
    rw [makeDirectories, hzero] at h
    simp [makeDirectoriesWithin, run_pure] at h
  obtain ⟨depth, hdepth⟩ := Nat.exists_eq_succ_of_ne_zero hcalls
  rw [makeDirectories, hdepth, makeDirectoriesWithin, run_bind] at h
  obtain ⟨⟨made, d₁⟩, hmade⟩ : ∃ run, d.run (makeDirectory p) = run := ⟨_, rfl⟩
  rw [hmade] at h
  dsimp only at h
  split at h
  · obtain rfl : d₁ = d' := by simpa [run_pure] using h
    apply kindOf_of_makeDirectory hmade
  · split at h
    · split at h
      · simp [run_pure] at h
      · rw [run_bind] at h
        split at h
        · apply kindOf_of_ensureDirectory h
        · simp [run_pure] at h
    · apply kindOf_of_forgiveDirectory h
  · simp [run_pure] at h

/-- While directories are made, the tree grows on the way to them. -/
theorem grown_makeDirectories (d : Disk) (calls : Nat) (p : Path) :
  d.tree.Grown p.stations (d.run (makeDirectories calls p)).2.tree
  := by
  have hfollows := Follows.makeDirectoriesWithin (maxNewDirectories calls) p ⟨d, []⟩
  rw [run, makeDirectories, hfollows]
  exact (Prepares.makeDirectoriesWithin (maxNewDirectories calls) p ⟨d, []⟩).prepared.tree

/-- No failure is planned, and the tags are the given ones. -/
def IsUnplanned (tags : List String) (d : Disk) : Prop :=
  d.plan = [] ∧ d.tags = tags

theorem isUnplanned_makeDirectories (tags : List String) (calls : Nat) (p : Path) :
  Keeps (IsUnplanned tags) (makeDirectories calls p)
  := by
  apply Keeps.makeDirectoriesWithin
  intro p d h
  rw [run_makeDirectory_of_plan h.1, settle]
  split
  · apply h
  · apply h

end Disk

/-! ### Names for temporary files -/

/-- The path of the temporary file that a tag gives for a target. -/
def Writer.temporaryPath (target : Path) (tag : String) : Path :=
  target.parent.normalize.child
    (temporaryStart target ++ LooseText.ofString tag ++ LooseText.ofString ".tmp")

/-- A disk has room for a temporary file beside a target. No failure is planned, the tags give
names that files can have, and one of these names is free. It stays free when the directories on
the way to the target are made. -/
structure Disk.HasRoom (d : Disk) (target : Path) : Prop where
  unplanned : d.plan = []
  nameable : ∀ tag ∈ d.tags, '\x00' ∉ tag.toList
  short : ∀ tag ∈ d.tags, Tree.isOversize (Writer.temporaryPath target tag) = false ∧
    (Path.settled (Writer.temporaryPath target tag).name).byteSize ≤ Tree.maxNameSize
  free : ∃ tag ∈ d.tags, d.tree.node? (Writer.temporaryPath target tag).location = none ∧
    (Writer.temporaryPath target tag).location ∉ target.parent.stations

namespace Writer

variable {d : Disk} {target : Path} {tag : String}

/-- A temporary file has a path that can be looked at just if its target has. -/
theorem fault?_temporaryPath_iff
    (hparent : target.parent.fault? = none) (htag : '\x00' ∉ tag.toList) :
  (temporaryPath target tag).fault? = none ↔ target.fault? = none
  := by
  have hdot := Path.nameable_of_mem_ofString (s := ".") (by decide)
  have htmp := Path.nameable_of_mem_ofString (s := ".tmp") (by decide)
  have htag := Path.nameable_of_mem_ofString htag
  rw [temporaryPath, Path.fault?_child_iff, Path.fault?_eq_none_iff_parent (p := target)]
  simp only [temporaryStart, List.forall_mem_append]
  constructor
  · rintro ⟨-, ⟨⟨⟨-, hname⟩, -⟩, -⟩, -⟩
    use hparent, hname
  · rintro ⟨-, hname⟩
    use Path.fault?_normalize hparent, ⟨⟨⟨hdot, hname⟩, hdot⟩, htag⟩, htmp

theorem settled_ne_up (h : (temporaryPath target tag).fault? = none) :
  Path.settled (temporaryPath target tag).name ≠ Path.up
  := by
  rw [temporaryPath, Path.fault?_child_iff] at h
  rw [temporaryPath, Path.name_child, Ne, Path.settled_eq_up_iff fun x hx => (h.2 x hx).1]
  intro hup
  have hlast := congrArg List.getLast? hup
  simp [LooseText.ofString, Path.up] at hlast

/-- A temporary file can be made in the directory of its target. -/
theorem exists_createTemporary
    (hroom : d.HasRoom target) {d' : Disk} (hunplanned : d'.IsUnplanned d.tags)
    (hgrown : d.tree.Grown target.parent.stations d'.tree)
    (hdirectory : d'.kindOf target.parent = .ok .directory) (hfault : target.fault? = none) :
  ∃ temporary, (d'.createTemporary target.parent (temporaryStart target) ".tmp").1 = .ok temporary
  := by
  obtain ⟨hplan, htags⟩ := hunplanned
  obtain ⟨hparent, entries, hfind⟩ := Disk.exists_directory_of_kindOf hdirectory
  rw [Disk.createTemporary_of_plan hplan, htags]
  apply Disk.exists_createWith
  · intro tag htag
    have hpath := (fault?_temporaryPath_iff hparent (hroom.nameable tag htag)).mpr hfault
    obtain ⟨hsize, hlong⟩ := hroom.short tag htag
    have hup := settled_ne_up hpath
    rw [temporaryPath, Path.name_child] at hlong hup
    exact ⟨hpath, _, Tree.names_of_normalize hparent hfind hsize hup hlong⟩
  · obtain ⟨tag, htag, hnone, hstations⟩ := hroom.free
    use tag, htag
    rcases hgrown (temporaryPath target tag).location with heq | ⟨-, -, hmem⟩
    · exact heq.trans hnone
    · exact absurd hmem hstations

end Writer

/-! ### The temporary file -/

namespace Writer

variable {ε : Type} {d : Disk} {before : Tree} {target temporary : Path} {bytes : List UInt8}

/-- The temporary file is filled. -/
theorem exists_write
    (hplan : d.plan = []) (h : Holding [] before temporary bytes d.tree) (others : List UInt8) :
  ∃ t, d.run (write temporary others) = (.ok (), { d with tree := t }) ∧
    Holding [] before temporary others t ∧ ∀ l, d.tree.node? l = some .directory →
      t.node? l = some .directory
  := by
  obtain ⟨s, hs⟩ := h.named
  obtain ⟨t, hwrite⟩ := Tree.exists_writeFile hs (by simp [h.file]) others
  refine ⟨t, ?_, h.writeFile hwrite, ?_⟩
  · rw [Disk.run_write, Disk.write_of_plan hplan, hwrite, Disk.settle_of_ok]
    simpa using h.faultless
  · obtain ⟨hold, hnodes⟩ := Tree.writeFile_eq_ok hwrite
    intro l hl
    rw [hnodes, if_neg, hl]
    rintro rfl
    apply hold hl

/-- The result of filling a file that can be written. -/
def filled (contents : LooseText) : Except (WriteFailure ε) Unit :=
  match Text.Utf8.encode? contents with
  | some _ => .ok ()
  | none => .error (.unencodable contents)

theorem run_fill_of_write
    {file : Path} {contents : LooseText} {d' : Disk}
    (h : d.run (write file ((Text.Utf8.encode? contents).getD [])) = (.ok (), d')) :
  d.run (fill file contents) = ((filled contents : Except (WriteFailure ε) Unit), d')
  := by
  rw [fill, Disk.run_bind, h, filled]
  cases Text.Utf8.encode? contents <;> rfl

theorem node?_of_holding
    {t : Tree} (h : Holding [] before temporary bytes t) {l : List LooseText}
    (hl : l ≠ temporary.location) :
  t.node? l = before.node? l
  := by
  rcases h.others l hl with heq | ⟨-, -, hmem⟩
  · apply heq
  · simp at hmem

/-- Giving up takes the temporary file away. -/
theorem exists_giveUp
    (hplan : d.plan = []) (h : Holding [] before temporary bytes d.tree) (checked : Bool)
    (failure : WriteFailure ε) :
  ∃ t, d.run (giveUp temporary checked failure)
      = (⟨[], checked, .error failure⟩, { d with tree := t }) ∧
    ∀ l, t.node? l = before.node? l
  := by
  obtain ⟨s, hs⟩ := h.named
  obtain ⟨t, hremove⟩ := Tree.exists_removeFile hs h.file
  have hrun : d.run (remove temporary) = (.ok (), { d with tree := t }) := by
    rw [Disk.run_remove_of_plan hplan, hremove, Disk.settle_of_ok]
    simpa using h.faultless
  use t
  constructor
  · rw [giveUp, discard, Disk.run_bind, Disk.run_bind, isPresent, Disk.run_leadsTo, h.kindOf]
    dsimp only [Disk.testKind]
    rw [Disk.run_bind, hrun]
    rfl
  · intro l
    rcases h.removeFile hremove l with heq | ⟨-, -, hmem⟩
    · apply heq
    · simp at hmem

end Writer

end ElmSchema
