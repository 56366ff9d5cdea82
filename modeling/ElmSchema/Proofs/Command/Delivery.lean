import ElmSchema.Proofs.Command.Acceptance
import ElmSchema.Proofs.Output.Destination
import ElmSchema.Proofs.Output.Temporary

/-!
# Delivery into a directory

A module that is delivered into a directory goes to the file named after it. Where no failure
is planned and a temporary file can be made, the file gets the code, unless a directory stands
in its place. In that case the delivery is reported as a failure. No other node changes, and
the temporary file is gone in both cases.
-/

namespace ElmSchema

open FileSystem

/-! ### Temporary files beside a target -/

/-- The name of a temporary file for a target with the given name. -/
def temporaryName (name tag : String) : String :=
  "." ++ name ++ "." ++ tag ++ ".tmp"

/-- The path of a file in a directory. -/
def Path.file (directory : Path) (name : String) : Path :=
  directory.child (LooseText.ofString name)

theorem temporaryStart_append (directory : Path) (name tag : String) :
  Writer.temporaryStart (directory.file name) ++ LooseText.ofString tag ++ LooseText.ofString ".tmp"
    = LooseText.ofString (temporaryName name tag)
  := by
  rw [Writer.temporaryStart, Path.file, Path.name_child]
  simp only [temporaryName, LooseText.ofString_append, List.append_assoc]

theorem LooseText.getLast?_ofString_append
    (start : String) {s : String} {c : Char} (h : s.toList.getLast? = some c) :
  (ofString (start ++ s)).getLast? = some (.char c)
  := by
  simp [ofString, h]

/-- A name that ends in a character other than a dot is not that of the directory above. -/
theorem LooseText.ne_up
    {t : LooseText} {c : Char} (h : t.getLast? = some (.char c)) (hc : c ≠ '.') :
  t ≠ Path.up
  := by
  rintro rfl
  apply hc
  simpa [Path.up] using h.symm

theorem getLast?_temporaryName (name tag : String) :
  (LooseText.ofString (temporaryName name tag)).getLast? = some (.char 'p')
  := LooseText.getLast?_ofString_append _ rfl

theorem temporaryName_ne_up (name tag : String) :
  LooseText.ofString (temporaryName name tag) ≠ Path.up
  := LooseText.ne_up (getLast?_temporaryName name tag) (by decide)

theorem byteSize_lt_temporaryName (name tag : String) :
  (LooseText.ofString name).byteSize < (LooseText.ofString (temporaryName name tag)).byteSize
  := by
  have hdot : (LooseText.ofString ".").byteSize = 1 := rfl
  simp only [temporaryName, LooseText.ofString_append, LooseText.byteSize_append, hdot]
  omega

theorem Path.location_file (directory : Path) {name : String} (h : LooseText.ofString name ≠ up) :
  (directory.file name).location = directory.location ++ [LooseText.ofString name]
  := by
  rw [file, location_child, settled_ofString]
  rwa [settled_ofString]

/-- When a temporary file has been made, its path is one of those made with the tags. -/
theorem exists_tag_of_createTemporary
    {d : Disk} {directory temporary : Path} {name : String} (hplan : d.plan = [])
    (hnormal : directory.normalize = directory)
    (h : (d.createTemporary directory (Writer.temporaryStart (directory.file name)) ".tmp").1
      = .ok temporary) :
  ∃ tag ∈ d.tags, temporary = directory.file (temporaryName name tag) ∧ temporary.fault? = none ∧
    ∃ t, d.tree.createFile temporary = .ok t ∧
      d.createTemporary directory (Writer.temporaryStart (directory.file name)) ".tmp"
        = (.ok temporary, { d with tree := t })
  := by
  rw [Disk.createTemporary_of_plan hplan, hnormal] at h ⊢
  obtain ⟨⟨made, d'⟩, hrun⟩ : ∃ run, d.createWith directory
      (Writer.temporaryStart (directory.file name)) ".tmp" d.tags = run := ⟨_, rfl⟩
  rw [hrun] at h
  obtain rfl : made = .ok temporary := h
  obtain ⟨tag, htag, hpath, hfault, t, hcreate, rfl⟩ := Disk.createWith_eq_ok hrun
  rw [temporaryStart_append] at hpath
  exact ⟨tag, htag, hpath, hfault, t, hcreate, hrun⟩

/-- The same temporary file is made on a disk that has all directories and in which the same
names of temporary files are taken. -/
theorem createTemporary_mono
    {d d' : Disk} {directory temporary : Path} {name : String} (hplan : d.plan = [])
    (hplan' : d'.plan = []) (htags : d'.tags = d.tags) (hnormal : directory.normalize = directory)
    (hkept : ∀ l, d.tree.node? l = some .directory → d'.tree.node? l = some .directory)
    (hsame : ∀ tag, d'.tree.node? (directory.file (temporaryName name tag)).location
      = d.tree.node? (directory.file (temporaryName name tag)).location)
    (h : (d.createTemporary directory (Writer.temporaryStart (directory.file name)) ".tmp").1
      = .ok temporary) :
  (d'.createTemporary directory (Writer.temporaryStart (directory.file name)) ".tmp").1
    = .ok temporary
  := by
  rw [Disk.createTemporary_of_plan hplan, hnormal] at h
  rw [Disk.createTemporary_of_plan hplan', hnormal, htags]
  apply Disk.createWith_mono hkept _ h
  intro tag _
  rw [temporaryStart_append, Path.settled_ofString]
  exact ⟨temporaryName_ne_up name tag, hsame tag⟩

/-! ### Writing into a directory -/

namespace Writer

variable {ε : Type} {policy : WritePolicy} {d : Disk} {before : Tree} {target temporary : Path}
  {bytes : List UInt8} {contents : String}

/-- A temporary file is filled and moved to its target, unless this is a directory. -/
theorem exists_fillAndMove
    (hplan : d.plan = []) (h : Holding [] before temporary bytes d.tree) {r : Tree.Slot}
    (hr : d.tree.Names target r) (hfault : target.fault? = none)
    (hne : target.location ≠ temporary.location) :
  ∃ t, d.run (fillAndMove policy (acceptance : WriteCheck (StateM Disk) ε) target temporary
        contents)
      = (if before.node? target.location = some .directory then
          ⟨[], policy.validate, .error (.file (.system ⟨.isDirectory, [temporary, target]⟩))⟩
        else ⟨[.wrote target.text], policy.validate, .ok ()⟩, { d with tree := t }) ∧
    ∀ l, t.node? l = if l = target.location ∧ before.node? l ≠ some .directory then
      some (.file (Text.Utf8.encode contents)) else before.node? l
  := by
  obtain ⟨t₁, hwrite, hholding, hkept⟩ := exists_write hplan h (Text.Utf8.encode contents)
  have hfill : d.run (fill temporary contents)
      = ((.ok () : Except (WriteFailure ε) Unit), { d with tree := t₁ }) := by
    rw [run_fill_ofString, ← Disk.run_write, hwrite]
    rfl
  obtain ⟨s, hs⟩ := hholding.named
  have hr₁ := hr.mono hkept
  have htarget := node?_of_holding hholding hne
  have hpaths : ∀ p ∈ [temporary, target], p.fault? = none := by
    simp [h.faultless, hfault]
  have hrename : ({ d with tree := t₁ } : Disk).run (rename temporary target)
      = ({ d with tree := t₁ } : Disk).settle [temporary, target] (t₁.rename temporary target) :=
    Disk.run_rename_of_plan (d := { d with tree := t₁ }) hplan temporary target
  rw [fillAndMove, Disk.run_bind, hfill]
  dsimp only
  rw [runCheck_acceptance, pure_bind, Disk.run_bind, hrename]
  by_cases hdirectory : before.node? target.location = some .directory
  · rw [Tree.rename_eq_isDirectory hs hr₁ hholding.file (htarget.trans hdirectory),
      Disk.settle_of_error hpaths, if_pos hdirectory]
    obtain ⟨t₂, hgiveUp, hnodes⟩ := exists_giveUp (ε := ε) (d := { d with tree := t₁ }) hplan
      hholding policy.validate (.file (.system ⟨.isDirectory, [temporary, target]⟩))
    use t₂, hgiveUp
    intro l
    rw [hnodes, if_neg]
    rintro ⟨rfl, hnot⟩
    apply hnot hdirectory
  · obtain ⟨t₂, hmove⟩ := Tree.exists_rename hs hr₁ hholding.file (htarget ▸ hdirectory)
    rw [hmove, Disk.settle_of_ok hpaths, if_neg hdirectory]
    use t₂, rfl
    obtain ⟨hfind, hothers⟩ := hholding.rename hmove
    intro l
    by_cases hl : l = target.location
    · obtain rfl := hl
      rw [if_pos ⟨rfl, hdirectory⟩, Tree.node?_of_find hfind]
      rfl
    · rw [if_neg (fun h => hl h.1)]
      rcases hothers l hl with heq | ⟨-, -, hmem⟩
      · apply heq
      · simp at hmem

/-- A file is written in a directory that is there, unless it is a directory itself. -/
theorem exists_writeAtomic
    {calls : Nat} {directory : Path} {name : String} (policy : WritePolicy) (contents : String)
    (hcalls : maxNewDirectories (calls + 1) ≠ 0) (hplan : d.plan = [])
    (hnormal : directory.normalize = directory) (hdirectory : d.kindOf directory = .ok .directory)
    (hup : LooseText.ofString name ≠ Path.up) (hnull : '\x00' ∉ name.toList)
    (htemporary : (d.createTemporary directory (temporaryStart (directory.file name)) ".tmp").1
      = .ok temporary) :
  let target := directory.file name
  ∃ t, d.run (writeAtomic calls policy (acceptance : WriteCheck (StateM Disk) ε) target contents)
      = (if d.tree.node? target.location = some .directory then
          ⟨[], policy.validate, .error (.file (.system ⟨.isDirectory, [temporary, target]⟩))⟩
        else ⟨[.wrote target.text], policy.validate, .ok ()⟩, { d with tree := t }) ∧
    ∀ l, t.node? l = if l = target.location ∧ d.tree.node? l ≠ some .directory then
      some (.file (Text.Utf8.encode contents)) else d.tree.node? l
  := by
  intro target
  obtain ⟨tag, -, hpath, hfault, t, hcreate, hrun⟩ :=
    exists_tag_of_createTemporary hplan hnormal htemporary
  have hholding : Holding [] d.tree temporary [] t :=
    Holding.of_createFile (fun l => .inl rfl) hfault hcreate
  obtain ⟨s, hs⟩ := hholding.named
  rw [hpath] at hs
  have hr := Tree.Names.sibling hs hup (byteSize_lt_temporaryName name tag).le
  obtain ⟨hdirectoryFault, -⟩ := Disk.kindOf_eq_ok_iff.mp hdirectory
  have hlocation : target.location ≠ temporary.location := by
    rw [hpath, Path.location_file directory hup,
      Path.location_file directory (temporaryName_ne_up name tag)]
    intro heq
    have hsize := byteSize_lt_temporaryName name tag
    rw [List.cons.inj (List.append_cancel_left heq) |>.1] at hsize
    exact Nat.lt_irrefl _ hsize
  have hparent : target.parent = directory := Path.parent_child _ _
  have hrun' : d.run (createTemporary directory (temporaryStart target) ".tmp")
      = (.ok temporary, { d with tree := t }) := hrun
  rw [writeAtomic, Disk.run_bind, hparent,
    Disk.run_makeDirectories_of_directory hcalls hplan hdirectory]
  dsimp only
  rw [Disk.run_bind, hrun']
  exact exists_fillAndMove (d := { d with tree := t }) hplan hholding hr
    (Path.fault?_child hdirectoryFault hnull) hlocation

end Writer

/-! ### Delivering code -/

namespace Command

/-- The file in a directory that a module is delivered to. -/
def targetIn (output : Path) (moduleName : String) : Path :=
  output.file (moduleName ++ ".elm")

/-- The line that tells of a delivered module. -/
def outputLine (target : Path) : String :=
  "Output: " ++ target.text ++ "\n"

theorem hasHalf_targetIn
    {output : Path} (h : output.looseText.hasHalf = false) (moduleName : String) :
  (targetIn output moduleName).looseText.hasHalf = false
  := by
  obtain ⟨start, htext, hstart⟩ := output.exists_looseText_child
  rw [targetIn, Path.file, htext, LooseText.hasHalf, List.any_append, Bool.or_eq_false_iff]
  constructor
  · rw [List.any_eq_false]
    intro x hx
    rcases hstart x hx with hx | rfl
    · exact List.any_eq_false.mp h x hx
    · simp [LooseChar.isHalf]
  · apply LooseText.hasHalf_ofString

theorem announce_targetIn
    {output : Path} (h : output.looseText.hasHalf = false) (moduleName : String) :
  announce (targetIn output moduleName)
    = (.said (outputLine (targetIn output moduleName)), .ok ())
  := by
  have hline : targetLine (targetIn output moduleName)
      = LooseText.ofString (outputLine (targetIn output moduleName)) := by
    rw [targetLine, outputLine, LooseText.ofString_append, LooseText.ofString_append, Path.text,
      LooseText.ofString_shown (hasHalf_targetIn h moduleName)]
  rw [announce, hline, LooseText.toString?_ofString]

/-- What is said of a target in whose place a directory stands. -/
def blockedMessage (target temporary : Path) : String :=
  "Cannot write " ++ target.text ++ ": " ++
    SystemError.message ⟨.isDirectory, [temporary, target]⟩

section

variable {output temporary : Path} {moduleName : String} {d : Disk}

theorem getLast?_elm (moduleName : String) :
  (LooseText.ofString (moduleName ++ ".elm")).getLast? = some (.char 'm')
  := LooseText.getLast?_ofString_append _ rfl

theorem location_targetIn (output : Path) (moduleName : String) :
  (targetIn output moduleName).location
    = output.location ++ [LooseText.ofString (moduleName ++ ".elm")]
  := output.location_file (LooseText.ne_up (getLast?_elm moduleName) (by decide))

/-- A character that is neither a letter or digit nor in the extension is not in the name of
the file of a module. -/
theorem not_mem_elm
    (hname : ∀ c ∈ moduleName.toList, c.isAlphanum) {c : Char} (hc : c.isAlphanum = false)
    (hextension : c ∉ ".elm".toList) :
  c ∉ (moduleName ++ ".elm").toList
  := by
  rw [String.toList_append, List.mem_append, not_or]
  use fun hmem => by simp [hname c hmem] at hc

/-- In a directory, the module goes to the file named after it. -/
theorem run_outputFile
    (hname : ∀ c ∈ moduleName.toList, c.isAlphanum)
    (hdirectory : d.kindOf output = .ok .directory) :
  d.run (outputFile output moduleName (.string ".elm")) = (.ok (targetIn output moduleName), d)
  := by
  rw [Disk.run_outputFile_of_directory hdirectory hname (by decide) (.inr (by decide)), targetIn,
    Path.file, LooseText.ofString_append]
  rfl

/-- Code that passes the check is delivered into a directory, unless a directory stands in the
place of its target. -/
theorem exists_deliver
    {settings : Settings} {code : String} (verbose : Bool)
    (hextension : settings.outputExtension = .string ".elm")
    (hpolicy : settings.writePolicy = .ok ⟨true, true⟩) (hcode : checkCode code = .ok ())
    (hname : ∀ c ∈ moduleName.toList, c.isAlphanum) (hplan : d.plan = [])
    (hnormal : output.normalize = output) (hhalf : output.looseText.hasHalf = false)
    (hdirectory : d.kindOf output = .ok .directory)
    (htemporary :
      (d.createTemporary output (Writer.temporaryStart (targetIn output moduleName)) ".tmp").1
        = .ok temporary) :
  let target := targetIn output moduleName
  ∃ t, d.run (deliver verbose settings output moduleName code)
      = (if d.tree.node? target.location = some .directory then
          (.ofEvents verbose [], .error (.reported (blockedMessage target temporary)))
        else (.ofEvents verbose [.wrote target.text] ++ .said (outputLine target), .ok ()),
        { d with tree := t }) ∧
    ∀ l, t.node? l = if l = target.location ∧ d.tree.node? l ≠ some .directory then
      some (.file (Text.Utf8.encode code)) else d.tree.node? l
  := by
  intro target
  have hcalls : maxNewDirectories (conversionCalls + 2) ≠ 0 := by decide
  obtain ⟨t, hrun, hnodes⟩ := Writer.exists_writeAtomic (ε := Rejection) ⟨true, true⟩ code hcalls
    hplan hnormal hdirectory (LooseText.ne_up (getLast?_elm moduleName) (by decide))
    (not_mem_elm hname (by decide) (by decide)) htemporary
  use t
  refine ⟨?_, hnodes⟩
  have hwrite : d.run (Writer.writeFile conversionCalls ⟨true, true⟩ (Writer.codeCheck code) target
        code)
      = (if d.tree.node? target.location = some .directory then
          ⟨[], true, .error (.file (.system ⟨.isDirectory, [temporary, target]⟩))⟩
        else ⟨[.wrote target.text], true, .ok ()⟩, { d with tree := t }) := by
    rw [Writer.codeCheck_eq_acceptance hcode]
    exact hrun
  rw [deliver, Disk.run_bind, hextension, run_outputFile hname hdirectory]
  dsimp only
  rw [hpolicy]
  dsimp only
  rw [Disk.run_bind, hwrite]
  by_cases hblocked : d.tree.node? target.location = some .directory
  · rw [if_pos hblocked, if_pos hblocked]
    rfl
  · rw [if_neg hblocked, if_neg hblocked]
    dsimp only
    rw [announce_targetIn hhalf]
    rfl

end

end Command

end ElmSchema
