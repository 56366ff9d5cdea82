import ElmSchema.Proofs.Command.Attempt

/-!
# Batches

The command converts the schema files of a folder into a directory one after the other, in the
order of their names. In the end each target holds the module of the last file that was converted
to it, and nothing else has changed.

The files are tried up to the first one whose text breaks off the reading. This happens where
a text ends within an escape, where a mistake lies in a line that is no row of the text, and
where a part is nested too deeply. Such a text ends the command, and the files after it are not
tried. Any other failure is reported and stands in no one's way.

All this is for a directory whose path can be printed. A half of a surrogate pair in the path ends
the command with the first file that is converted, since the line that tells its target cannot be
printed. What is printed for failures is told for runs that are not verbose; a verbose run prints
the calls that led to a failure as well.
-/

namespace ElmSchema.Command

open FileSystem

/-! ### All attempts -/

/-- The files that are tried: all of them up to the first that ends the command. -/
def tried (d : Disk) (extras : Extras) (output : Path) : List Path → List Path
  | [] => []
  | input :: rest =>
    match (attemptOn d extras output input).fate with
    | .crashed _ => [input]
    | _ => input :: tried d extras output rest

section

variable {d : Disk} {extras : Extras} {folder output : Path} {names : List LooseText}
  {done : List Path} {input : Path} {settings : Settings}

/-- A run is a batch after the given transcript: it tries the files in their order up to the
first that ends the command, and prints what the attempts print. The exit code is one if some
file is not converted, here or before. -/
structure IsBatch (verbose : Bool) (d : Disk) (extras : Extras) (output : Path)
    (done files : List Path) (before : Transcript) (failed : Bool) (run : Report × Disk) :
    Prop where
  stdout : run.1.stdout = before.stdout ++ String.join ((tried d extras output files).map
    fun p => (attemptOn d extras output p).stdout (targetIn output p.moduleName))
  stderr : run.1.stderr = before.stderr ++ String.join ((tried d extras output files).map
    fun p => (attemptOn d extras output p).stderr verbose p)
  exitCode : run.1.exitCode = if failed || !((tried d extras output files).all
    fun p => (attemptOn d extras output p).fate.isConverted) then 1 else 0
  crash : run.1.crash = (tried d extras output files).findSome?
    fun p => (attemptOn d extras output p).fate.crash?
  after : IsAfter d extras output (done ++ tried d extras output files) run.2

theorem tried_cons_of_crash?_eq_none
    (h : (attemptOn d extras output input).fate.crash? = none) (rest : List Path) :
  tried d extras output (input :: rest) = input :: tried d extras output rest
  := by
  rw [tried]
  split
  · rename_i e hfate
    simp [hfate, Fate.crash?] at h
  · rfl

/-- A batch starts with an attempt that does not end the command and goes on with the other
files. -/
theorem IsBatch.cons
    {verbose : Bool} {rest : List Path} {before log : Transcript} {failed failed' : Bool}
    {run : Report × Disk}
    (h : IsBatch verbose d extras output (done ++ [input]) rest (before ++ log) failed' run)
    (hcrash : (attemptOn d extras output input).fate.crash? = none)
    (hstdout : log.stdout
      = (attemptOn d extras output input).stdout (targetIn output input.moduleName))
    (hstderr : log.stderr = (attemptOn d extras output input).stderr verbose input)
    (hfailed : failed' = (failed || !(attemptOn d extras output input).fate.isConverted)) :
  IsBatch verbose d extras output done (input :: rest) before failed run
  := by
  have htried := tried_cons_of_crash?_eq_none hcrash rest
  constructor
  · rw [h.stdout, htried, List.map_cons, String.join_cons, ← hstdout, ← String.append_assoc]
    rfl
  · rw [h.stderr, htried, List.map_cons, String.join_cons, ← hstderr, ← String.append_assoc]
    rfl
  · rw [h.exitCode, htried, List.all_cons, hfailed, Bool.not_and, Bool.or_assoc]
  · rw [h.crash, htried, List.findSome?_cons, hcrash]
  · have hafter := h.after
    rwa [List.append_assoc, List.singleton_append, ← htried] at hafter

-- The induction is on the files that are left. The disk in between is known by the files done so
-- far, and what was printed before them stands in front.
/-- The conversion of schema files is a batch. -/
theorem isBatch_convertAll
    (verbose : Bool) (hextension : settings.outputExtension = .string ".elm")
    (hpolicy : settings.writePolicy = .ok ⟨true, true⟩) (hready : IsReady d folder output names)
    (hnormal : output.normalize = output) :
  ∀ {files : List Path} {done : List Path} {now : Disk} (before : Transcript) (failed : Bool),
    IsAfter d settings.extras output done now →
    (∀ p ∈ files, p ∈ d.schemaFilesIn folder names) →
    IsBatch verbose d settings.extras output done files before failed
      (now.run (convertAll verbose settings (some output) before failed files))
  | [], done, now, before, failed, h, _ => by
      constructor
      · simp [convertAll, Disk.run_pure, tried]
      · simp [convertAll, Disk.run_pure, tried]
      · simp [convertAll, Disk.run_pure, tried]
      · simp [convertAll, Disk.run_pure, tried]
      · simpa [convertAll, Disk.run_pure, tried] using h
  | input :: rest, done, now, before, failed, h, hfiles => by
      rw [List.forall_mem_cons] at hfiles
      obtain ⟨hresult, hafter⟩ := isStep_convert verbose hextension hpolicy hready hnormal h
        hfiles.1
      rw [convertAll, Disk.run_bind, hresult]
      generalize (now.run (convert verbose settings (some output) input)).2 = next at hafter ⊢
      have hbatch := fun before failed =>
        isBatch_convertAll verbose hextension hpolicy hready hnormal before failed hafter hfiles.2
      cases hfate : (attemptOn d settings.extras output input).fate with
      | converted code =>
          apply (hbatch _ failed).cons
          · rw [hfate]
            rfl
          · apply Attempt.stdout_log
          · rw [Attempt.stderr_log, Attempt.stderr, hfate, String.append_empty]
          · simp [hfate, Fate.isConverted]
      | failed message =>
          dsimp only [Fate.result]
          rw [Transcript.append_assoc]
          apply (hbatch _ true).cons
          · rw [hfate]
            rfl
          · rw [Transcript.stdout_append, Attempt.stdout_log]
            exact String.append_empty
          · rw [Transcript.stderr_append, Attempt.stderr_log, Attempt.stderr, hfate]
            rfl
          · simp [hfate, Fate.isConverted]
      | crashed e =>
          have htried : tried d settings.extras output (input :: rest) = [input] := by
            rw [tried, hfate]
          constructor
          · simp [htried, Fate.result, Disk.run_pure, Report.crashed, Attempt.stdout_log]
          · simp [htried, Fate.result, Disk.run_pure, Report.crashed, Attempt.stderr_log,
              Attempt.stderr, hfate]
          · simp [htried, Fate.result, Disk.run_pure, Report.crashed, hfate, Fate.isConverted]
          · simp [htried, Fate.result, Disk.run_pure, Report.crashed, hfate, Fate.crash?]
          · simpa [htried, Fate.result, Disk.run_pure] using hafter

end

/-! ### The command on a folder -/

section

variable {d : Disk} {folder output : Path} {names : List LooseText} {a : Arguments}

theorem kindOf_of_list (h : d.list folder = .ok names) :
  d.kindOf folder = .ok .directory
  := by
  obtain ⟨hfault, hlook⟩ := Disk.observe_eq_ok h
  apply Disk.kindOf_eq_ok_iff.mpr
  use hfault _ List.mem_cons_self
  cases hfind : d.tree.find folder with
  | error fault => simp [hfind, bind, Except.bind] at hlook
  | ok e =>
      cases e with
      | file bytes => simp [hfind, bind, Except.bind] at hlook
      | directory entries => exact ⟨_, rfl, rfl⟩

/-- A path that an argument stands for is normal. -/
theorem of_resolve {argument : String} {p : Path} (h : (d.run (resolve argument)).1 = .ok p) :
  d.run (resolve argument) = (.ok p, d) ∧ p.normalize = p
  := by
  have hhome : d.run workingDirectory = (d.home, d) := rfl
  rw [resolve, Disk.run_bind, hhome] at h ⊢
  dsimp only at h ⊢
  split at h
  · simp [Disk.run_pure] at h
  · obtain rfl := Except.ok.inj h
    exact ⟨rfl, Path.normalize_normalize _ _⟩

theorem run_resolvePaths
    {source destination : String} (hvalues : a.values = [(.output, destination)])
    (hpositional : a.positional = [source]) (hsource : (d.run (resolve source)).1 = .ok folder)
    (hdestination : (d.run (resolve destination)).1 = .ok output)
    (hlist : d.list folder = .ok names) :
  d.run (resolvePaths a) = (.ok ⟨⟨some output, none⟩, folder⟩, d)
  := by
  have hoptions : d.run (resolveOptions {} a.values) = (.ok ⟨some output, none⟩, d) := by
    rw [hvalues, resolveOptions, resolveOption, Disk.run_bind, Disk.run_bind,
      (of_resolve hdestination).1]
    rfl
  have hpresent : d.run (resolvePresent "'PATH'" source) = (.ok folder, d) := by
    have hkind : d.run (FileSystem.kindOf folder) = (.ok .directory, d) :=
      congrArg (·, d) (kindOf_of_list hlist)
    rw [resolvePresent, Disk.run_bind, (of_resolve hsource).1]
    dsimp only
    rw [Disk.run_bind, hkind]
    rfl
  rw [resolvePaths, Disk.run_bind, hoptions, hpositional]
  dsimp only
  rw [Disk.run_bind, hpresent]
  rfl

theorem exists_inputFiles
    {settings : Settings} (hextensions : settings.extensions = .ok defaultExtensions)
    (hready : IsReady d folder output names) :
  ∃ files, d.run (inputFiles settings folder) = (.ok files, d) ∧
    files.Perm (d.schemaFilesIn folder names) ∧
    files.Pairwise fun p q => p.name ≤ q.name
  := by
  obtain ⟨files, hrun, hperm, hsorted⟩ := Disk.exists_schemaFiles hready.listed hready.looked
  refine ⟨files, ?_, hperm, hsorted⟩
  have hdirectory : d.run (isDirectory folder) = (.ok true, d) := by
    rw [isDirectory, Disk.run_leadsTo, kindOf_of_list hready.listed]
    rfl
  rw [inputFiles, Disk.run_bind, hdirectory, hextensions]
  dsimp only
  rw [Disk.run_bind, hrun]
  rfl

theorem extras_applyOptions (a : Arguments) :
  (applyOptions a {}).extras = ⟨a.withUtils, a.withInputs⟩
  := by
  unfold applyOptions
  cases a.withUtils <;> cases a.withInputs <;> rfl

/-- The options of the command leave the other settings as they are by default. -/
theorem applyOptions_default (a : Arguments) :
  (applyOptions a {}).outputExtension = .string ".elm" ∧
    (applyOptions a {}).writePolicy = .ok ⟨true, true⟩ ∧
    (applyOptions a {}).extensions = .ok defaultExtensions
  := by
  unfold applyOptions
  cases a.withUtils <;> cases a.withInputs <;> exact ⟨rfl, rfl, rfl⟩

end

theorem mem_of_mem_tried {d : Disk} {extras : Extras} {output p : Path} :
  ∀ {files : List Path}, p ∈ tried d extras output files → p ∈ files
  | input :: rest, h => by
      rw [tried] at h
      split at h
      · rw [List.mem_singleton.mp h]
        exact List.mem_cons_self
      · rcases List.mem_cons.mp h with rfl | h
        · exact List.mem_cons_self
        · exact List.mem_cons_of_mem _ (mem_of_mem_tried h)

/-- If no fault has ended the command, all files have been tried. -/
theorem tried_eq_self
    {d : Disk} {extras : Extras} {output : Path} :
  ∀ {files : List Path},
    (tried d extras output files).findSome? (fun p => (attemptOn d extras output p).fate.crash?)
      = none → tried d extras output files = files
  | [], _ => rfl
  | input :: rest, h => by
      rw [tried] at h ⊢
      split at h
      · rename_i e hfate
        simp [hfate, Fate.crash?] at h
      · rw [List.findSome?_cons] at h
        split at h
        · simp at h
        · rw [tried_eq_self h]

/-- A file ends the command just if its text cannot be read for a reason other than a mistake
in it. -/
theorem crash?_eq_some_iff {d : Disk} {extras : Extras} {output input : Path} {c : Crash} :
  (attemptOn d extras output input).fate.crash? = some c ↔
    ∃ cs e, decodeText (contentsAt d input) = .ok cs ∧
      Document.read (conversionCalls + 3) (String.ofList cs) = .error e ∧
      (∀ mistake, e ≠ .badSyntax mistake) ∧ c = .unreadable e
  := by
  rw [attemptOn, attempt]
  cases hdecode : decodeText (contentsAt d input) with
  | error f => simp [Fate.crash?]
  | ok cs =>
      simp only [Except.ok.injEq]
      cases hread : Document.read (conversionCalls + 3) (String.ofList cs) with
      | error e =>
          have hgenerate : (Source.text (String.ofList cs)).generate conversionCalls
              input.moduleName extras = ([], .error (.unreadable e)) := by
            simp only [Source.generate, Source.analyze, Source.read, hread]
          rw [hgenerate]
          cases e <;> simp [Fate.ofGeneration, Fate.crash?, hread, eq_comm]
      | ok doc =>
          have hnone : ¬ ∃ cs' e, cs = cs' ∧ Document.read (conversionCalls + 3) (String.ofList cs')
              = .error e ∧ (∀ mistake, e ≠ .badSyntax mistake) ∧ c = .unreadable e := by
            rintro ⟨cs', e, rfl, hread', -⟩
            simp [hread] at hread'
          simp only [hnone, iff_false, Source.generate, Source.analyze, Source.read, hread]
          rcases Document.analyze input.moduleName doc with ⟨events, e | schema⟩
          · simp [Fate.ofGeneration, Fate.crash?]
          · cases obstacleAt d output input.moduleName <;> simp [Fate.crash?]

/-- The command converts the schema files of a folder into a directory whose path has no half of
a surrogate pair in it, so that the targets can be printed. In whatever order the folder lists its
entries, the files are tried in the order of their names, all of them or up to the first whose text
breaks off the reading. What becomes of a file depends on its own name and contents, and on whether
a directory stood in the place of its target at the start. The command prints a line for each file
that is converted. Unless it is verbose, it prints besides only the warnings of the files and an
error for each that fails. All these are in the order of the files. The exit code is zero if all
files have been converted. In the end each location holds the module that was written to it last;
what no module was written to is as it was, the schema files among it. -/
theorem folder_converted
    {args : List String} {a : Arguments} {source destination : String} {d : Disk}
    {folder output : Path} {names : List LooseText} (hargs : Arguments.read args = .ok a)
    (hhelp : a.help = false) (hvalues : a.values = [(.output, destination)])
    (hpositional : a.positional = [source]) (hsource : (d.run (resolve source)).1 = .ok folder)
    (hdestination : (d.run (resolve destination)).1 = .ok output)
    (hready : IsReady d folder output names) :
  let extras : Extras := ⟨a.withUtils, a.withInputs⟩
  let attemptAt := attemptOn d extras output
  let report := (d.run (run args)).1
  let after := (d.run (run args)).2
  ∃ files : List Path, files.Perm (d.schemaFilesIn folder names) ∧
    files.Pairwise (fun p q => p.name ≤ q.name) ∧
    let done := tried d extras output files
    (report.crash = none → done = files) ∧
    report.crash = done.findSome? (fun p => (attemptAt p).fate.crash?) ∧
    (∀ c, report.crash = some c → ∃ p ∈ files, ∃ cs e,
      decodeText (contentsAt d p) = .ok cs ∧
      Document.read (conversionCalls + 3) (String.ofList cs) = .error e ∧
      (∀ mistake, e ≠ .badSyntax mistake) ∧ c = .unreadable e) ∧
    report.exitCode = (if done.all fun p => (attemptAt p).fate.isConverted then 0 else 1) ∧
    report.stdout
      = String.join (done.map fun p => (attemptAt p).stdout (targetIn output p.moduleName)) ∧
    (a.verbose = false →
      report.stderr = String.join (done.map fun p => (attemptAt p).stderr false p)) ∧
    (∀ l, after.tree.node? l
      = ((done.filterMap (writtenTo d extras output l)).getLast?.map Node.file).or
        (d.tree.node? l)) ∧
    ∀ p ∈ files, after.tree.node? p.location = d.tree.node? p.location
  := by
  intro extras attemptAt report after
  obtain ⟨hextension, hpolicy, hextensions⟩ := applyOptions_default a
  obtain ⟨files, hfiles, hperm, hsorted⟩ := exists_inputFiles hextensions hready
  have hrun : d.run (run args)
      = d.run (convertAll a.verbose (applyOptions a {}) (some output) {} false files) := by
    rw [run, hargs]
    dsimp only
    rw [hhelp, if_neg Bool.false_ne_true, Disk.run_bind,
      run_resolvePaths hvalues hpositional hsource hdestination hready.listed]
    dsimp only
    rw [runWith, loadSettings, pure_bind]
    dsimp only
    rw [Disk.run_bind, hfiles]
  have hbatch := isBatch_convertAll a.verbose hextension hpolicy hready
    (of_resolve hdestination).2 {} false (IsAfter.start hready.plan)
    (fun p hp => hperm.mem_iff.mp hp)
  rw [← hrun, extras_applyOptions] at hbatch
  refine ⟨files, hperm, hsorted, ?_, hbatch.crash, ?_, ?_, ?_, ?_, hbatch.after.node?, ?_⟩
  · intro hcrash
    apply tried_eq_self
    rw [← hbatch.crash]
    exact hcrash
  · intro c hc
    rw [hbatch.crash] at hc
    obtain ⟨p, hp, hfate⟩ := List.exists_of_findSome?_eq_some hc
    use p, mem_of_mem_tried hp
    exact crash?_eq_some_iff.mp hfate
  · apply hbatch.exitCode.trans
    rw [Bool.false_or]
    cases List.all _ _ <;> rfl
  · exact hbatch.stdout.trans (String.empty_append ..)
  · intro hverbose
    rw [hverbose] at hbatch
    exact hbatch.stderr.trans (String.empty_append ..)
  · intro p hp
    apply hbatch.after.node?_of_ne
    exact (of_mem_schemaFilesIn output (hperm.mem_iff.mp hp)).2

/-- A disk with a folder of three schema files, listed against their order. The text of the
second ends within an escape. -/
def brokenDisk : Disk where
  tree := .directory [
    ("out", .directory []),
    ("s", .directory [
      ("c.gql", .file "enum C \x7b X \x7d".toUTF8.toList),
      ("b.gql", .file "\"\\".toUTF8.toList),
      ("a.gql", .file "enum A \x7b X \x7d".toUTF8.toList)])]
  home := ⟨"/", []⟩
  tags := ["0"]

/-- The files of the folder in their order. -/
def brokenFiles : List Path :=
  [⟨"/", ["s", "a.gql"]⟩, ⟨"/", ["s", "b.gql"]⟩, ⟨"/", ["s", "c.gql"]⟩]

theorem brokenDisk_isReady :
  IsReady brokenDisk ⟨"/", ["s"]⟩ ⟨"/", ["out"]⟩ ["c.gql", "b.gql", "a.gql"]
  := by
  have hfiles : brokenDisk.schemaFilesIn ⟨"/", ["s"]⟩ ["c.gql", "b.gql", "a.gql"]
      = [⟨"/", ["s", "c.gql"]⟩, ⟨"/", ["s", "b.gql"]⟩, ⟨"/", ["s", "a.gql"]⟩] := by
    decide +kernel
  refine ⟨rfl, rfl, ?_, rfl, rfl, ?_⟩
  · have hlook : ∀ name ∈ [("c.gql" : LooseText), "b.gql", "a.gql"],
        brokenDisk.kindOf (Path.child ⟨"/", ["s"]⟩ name) = .ok .file := by
      decide +kernel
    intro name hname
    exact ⟨_, hlook name hname⟩
  · rw [hfiles]
    intro input hinput
    simp only [List.mem_cons, List.not_mem_nil, or_false] at hinput
    rcases hinput with rfl | rfl | rfl
    · exact ⟨⟨"/", ["out", ".C.elm.0.tmp"]⟩, by decide +kernel⟩
    · exact ⟨⟨"/", ["out", ".B.elm.0.tmp"]⟩, by decide +kernel⟩
    · exact ⟨⟨"/", ["out", ".A.elm.0.tmp"]⟩, by decide +kernel⟩

/-- On the broken disk the first file is converted, the second ends the command, and the third
is not tried. -/
theorem folder_converted_broken :
  (brokenDisk.run (run ["s", "-o", "out"])).1.crash = some (.unreadable .truncatedEscape) ∧
    (brokenDisk.run (run ["s", "-o", "out"])).1.exitCode = 1 ∧
    (brokenDisk.run (run ["s", "-o", "out"])).1.stdout = "Output: /out/A.elm\n" ∧
    (brokenDisk.run (run ["s", "-o", "out"])).1.stderr = "" ∧
    ((brokenDisk.run (run ["s", "-o", "out"])).2.tree.node? ["out", "A.elm"]).isSome ∧
    (brokenDisk.run (run ["s", "-o", "out"])).2.tree.node? ["out", "C.elm"] = none
  := by
  have hread : Arguments.read ["s", "-o", "out"]
      = .ok ⟨[(.output, "out")], false, false, false, false, ["s"]⟩ := rfl
  obtain ⟨files, hperm, hsorted, -, hcrash, -, hexit, hstdout, hstderr, hnodes, -⟩ :=
    folder_converted hread rfl rfl rfl (d := brokenDisk) rfl rfl brokenDisk_isReady
  have hperm : files.Perm brokenFiles := hperm.trans (by decide +kernel)
  have hantisymm : ∀ p ∈ brokenFiles, ∀ q ∈ brokenFiles, p.name ≤ q.name → q.name ≤ p.name →
      p = q := by
    decide +kernel
  obtain rfl : files = brokenFiles := by
    apply hperm.eq_of_pairwise _ hsorted (by decide +kernel)
    intro p q hp hq
    exact hantisymm p (hperm.mem_iff.mp hp) q hq
  rw [hcrash, hexit, hstdout, hstderr rfl, hnodes, hnodes]
  decide +kernel

end ElmSchema.Command
