import ElmSchema.Proofs.Command.Delivery
import ElmSchema.Proofs.Discovery

/-!
# Attempts

What becomes of a schema file when the command tries to convert it into a directory: it is
converted, it fails with a message, or its text breaks off the reading and ends the command. This
depends on its own name and contents and on whether a directory stood in the place of its target
at the start. Attempts at other files in between make no difference, since they write to
targets only. No target is a schema file, and none is a directory or becomes one.
-/

namespace ElmSchema.Command

open FileSystem

/-! ### What becomes of a file -/

/-- What becomes of a schema file: it is converted to a module, it fails with a message, or its
text breaks off the reading and ends the command. -/
inductive Fate where
  | converted (code : String)
  | failed (message : String)
  | crashed (e : Document.ReadError)

namespace Fate

/-- Whether a file is converted. -/
def isConverted : Fate → Bool
  | .converted _ => true
  | _ => false

/-- The fault that ends the command, if there is one. -/
def crash? : Fate → Option Crash
  | .crashed e => some (.unreadable e)
  | _ => none

/-- The result of the conversion. -/
def result : Fate → Except ConversionFailure Unit
  | .converted _ => .ok ()
  | .failed message => .error (.reported message)
  | .crashed e => .error (.fatal (.unreadable e))

/-- What becomes of a file from which no module can be generated. A mistake in its text is
reported, and so is a type that is malformed. -/
def ofGeneration : GenerationError → Fate
  | .unreadable (.badSyntax report) => .failed report
  | .unreadable e => .crashed e
  | .malformed e => .failed e.message

theorem result_ofGeneration (e : GenerationError) :
  (ofGeneration e).result = .error (.ofGeneration e)
  := by
  cases e with
  | unreadable e => cases e <;> rfl
  | malformed e => rfl

theorem isConverted_ofGeneration (e : GenerationError) :
  (ofGeneration e).isConverted = false
  := by
  cases e with
  | unreadable e => cases e <;> rfl
  | malformed e => rfl

end Fate

/-- An attempt to convert a schema file: the events up to its end, and what becomes of the
file. -/
structure Attempt where
  events : List Event
  fate : Fate

/-- The attempt to convert a schema file with the given contents to a target. An obstacle is
what the system says if the target cannot be written. -/
def attempt (extras : Extras) (input target : Path) (bytes : List UInt8)
    (obstacle : Option String) : Attempt :=
  let start := Event.converting input.text input.moduleName
  match decodeText bytes with
  | .error f => ⟨[start], .failed ("Cannot read schema: " ++ f.message)⟩
  | .ok cs =>
    match (Source.text (String.ofList cs)).generate conversionCalls input.moduleName extras with
    | (events, .error e) => ⟨start :: events, .ofGeneration e⟩
    | (events, .ok code) =>
      match obstacle with
      | some message => ⟨start :: events, .failed message⟩
      | none => ⟨start :: events ++ [.wrote target.text], .converted code⟩

namespace Attempt

/-- What an attempt prints for the user: the line that tells the target, if the file is
converted. -/
def stdout (target : Path) (a : Attempt) : String :=
  match a.fate with
  | .converted _ => Text.withoutControls (outputLine target)
  | _ => ""

/-- What an attempt prints of events and errors. The calls that led to a failure, which a verbose
run prints as well, are left out. -/
def stderr (verbose : Bool) (input : Path) (a : Attempt) : String :=
  (Transcript.ofEvents verbose a.events).stderr ++
    match a.fate with
    | .failed message =>
      (Transcript.ofEvents verbose [.conversionFailed input.text]).stderr ++
        Text.withoutControls ("Error: " ++ input.name.shown ++ ": " ++ message ++ "\n")
    | _ => ""

/-- The transcript of an attempt as far as the file itself is concerned. A failure is reported
afterwards. -/
def log (verbose : Bool) (target : Path) (a : Attempt) : Transcript :=
  Transcript.ofEvents verbose a.events ++
    match a.fate with
    | .converted _ => .said (outputLine target)
    | _ => {}

end Attempt

/-! ### Attempts on a disk -/

/-- The contents of the file at a path. -/
def contentsAt (d : Disk) (p : Path) : List UInt8 :=
  match d.tree.node? p.location with
  | some (.file bytes) => bytes
  | _ => []

/-- The obstacle on the way to a module: a directory stands in the place of its target. -/
def obstacleAt (d : Disk) (output : Path) (moduleName : String) : Option String :=
  let target := targetIn output moduleName
  if d.tree.node? target.location = some .directory then
    match (d.createTemporary output (Writer.temporaryStart target) ".tmp").1 with
    | .ok temporary => some (blockedMessage target temporary)
    | .error e => some e.message
  else none

/-- The attempt to convert a schema file on a disk. -/
def attemptOn (d : Disk) (extras : Extras) (output input : Path) : Attempt :=
  attempt extras input (targetIn output input.moduleName) (contentsAt d input)
    (obstacleAt d output input.moduleName)

/-- What an attempt writes to a location. -/
def writtenTo (d : Disk) (extras : Extras) (output : Path) (l : List LooseText) (input : Path) :
    Option (List UInt8) :=
  match (attemptOn d extras output input).fate with
  | .converted code =>
    if l = (targetIn output input.moduleName).location then some (Text.Utf8.encode code) else none
  | _ => none

/-- A folder can be converted into a directory: no failure is planned, the folder can be listed
and its entries can be looked at, the path of the directory can be printed, and for each schema
file a temporary file can be made in the directory. -/
structure IsReady (d : Disk) (folder output : Path) (names : List LooseText) : Prop where
  plan : d.plan = []
  listed : d.list folder = .ok names
  looked : ∀ name ∈ names, ∃ kind, d.kindOf (folder.child name) = .ok kind
  directory : d.kindOf output = .ok .directory
  printable : output.looseText.hasHalf = false
  temporary : ∀ input ∈ d.schemaFilesIn folder names, ∃ temporary,
    (d.createTemporary output
      (Writer.temporaryStart (targetIn output input.moduleName)) ".tmp").1 = .ok temporary

/-! ### Transcripts -/

namespace Transcript

@[simp]
theorem stdout_append (s t : Transcript) :
  (s ++ t).stdout = s.stdout ++ t.stdout
  := rfl

@[simp]
theorem stderr_append (s t : Transcript) :
  (s ++ t).stderr = s.stderr ++ t.stderr
  := rfl

@[simp]
theorem stdout_ofEvents (verbose : Bool) (events : List Event) :
  (ofEvents verbose events).stdout = ""
  := rfl

theorem append_assoc (s t u : Transcript) :
  s ++ t ++ u = s ++ (t ++ u)
  := by
  have happend (s t : Transcript) : s ++ t = ⟨s.stdout ++ t.stdout, s.stderr ++ t.stderr⟩ := rfl
  simp only [happend, String.append_assoc]

theorem append_empty (t : Transcript) :
  t ++ {} = t
  := by
  obtain ⟨stdout, stderr⟩ := t
  have happend : (⟨stdout, stderr⟩ ++ {} : Transcript) = ⟨stdout ++ "", stderr ++ ""⟩ := rfl
  rw [happend, String.append_empty, String.append_empty]

theorem ofEvents_append (verbose : Bool) (events more : List Event) :
  ofEvents verbose (events ++ more) = ofEvents verbose events ++ ofEvents verbose more
  := by
  have happend (s t : String) : (⟨"", s⟩ ++ ⟨"", t⟩ : Transcript) = ⟨"", s ++ t⟩ := rfl
  simp only [ofEvents, List.filter_append, List.map_append, String.join_append, happend]

theorem ofEvents_cons (verbose : Bool) (e : Event) (events : List Event) :
  ofEvents verbose (e :: events) = ofEvents verbose [e] ++ ofEvents verbose events
  := ofEvents_append verbose [e] events

end Transcript

namespace Attempt

theorem stdout_log (verbose : Bool) (target : Path) (a : Attempt) :
  (a.log verbose target).stdout = a.stdout target
  := by
  obtain ⟨events, fate⟩ := a
  cases fate <;> simp [stdout, log, Transcript.said]

theorem stderr_log (verbose : Bool) (target : Path) (a : Attempt) :
  (a.log verbose target).stderr = (Transcript.ofEvents verbose a.events).stderr
  := by
  obtain ⟨events, fate⟩ := a
  cases fate <;> simp [log, Transcript.said]

end Attempt

/-- Code that was generated from a text passes the check. -/
theorem checkCode_of_generate
    {calls : Nat} {p : Path} {extras : Extras} {text : String} {events : List Event} {code : String}
    (h : (Source.text text).generate calls p.moduleName extras = (events, .ok code)) :
  checkCode code = .ok ()
  := by
  rw [Source.generate] at h
  split at h
  · rename_i found s hanalyze
    obtain ⟨rfl, hcode⟩ := Prod.mk.inj h
    obtain rfl := Except.ok.inj hcode
    exact checkCode_of_analyze hanalyze extras
  · simp at h

/-! ### Disks in the course of a batch -/

/-- A disk after attempts at some files: each location holds what the last attempt wrote there,
and what it held at the start if none did. -/
structure IsAfter (d : Disk) (extras : Extras) (output : Path) (done : List Path) (now : Disk) :
    Prop where
  tags : now.tags = d.tags
  plan : now.plan = []
  node? : ∀ l, now.tree.node? l
    = ((done.filterMap (writtenTo d extras output l)).getLast?.map Node.file).or (d.tree.node? l)

theorem obstacle_eq_none_of_converted
    {extras : Extras} {input target : Path} {bytes : List UInt8} {obstacle : Option String}
    {code : String} (h : (attempt extras input target bytes obstacle).fate = .converted code) :
  obstacle = none
  := by
  cases obstacle with
  | none => rfl
  | some message =>
      unfold attempt at h
      dsimp only at h
      split at h
      · simp at h
      · split at h
        · rename_i events e _
          have hfate := Fate.isConverted_ofGeneration e
          have hconverted : Fate.ofGeneration e = .converted code := h
          rw [hconverted] at hfate
          simp [Fate.isConverted] at hfate
        · simp at h

section

variable {d now : Disk} {extras : Extras} {folder output : Path} {names : List LooseText}
  {done : List Path} {input : Path}

theorem obstacleAt_eq_none_iff {moduleName : String} :
  obstacleAt d output moduleName = none ↔
    d.tree.node? (targetIn output moduleName).location ≠ some .directory
  := by
  unfold obstacleAt
  dsimp only
  split
  · rename_i hdirectory
    simp only [hdirectory, ne_eq, not_true_eq_false, iff_false]
    split <;> simp
  · rename_i hdirectory
    simp [hdirectory]

/-- An attempt writes to its target only, and only where no directory stands. -/
theorem of_writtenTo
    {l : List LooseText} {bytes : List UInt8}
    (h : writtenTo d extras output l input = some bytes) :
  l = (targetIn output input.moduleName).location ∧ d.tree.node? l ≠ some .directory
  := by
  unfold writtenTo at h
  split at h
  · rename_i code hfate
    split at h
    · rename_i hl
      use hl
      rw [hl]
      apply obstacleAt_eq_none_iff.mp
      exact obstacle_eq_none_of_converted hfate
    · simp at h
  · simp at h

namespace IsAfter

theorem start (h : d.plan = []) :
  IsAfter d extras output [] d
  := ⟨rfl, h, fun _ => rfl⟩

/-- Where no target lies, nothing changes. -/
theorem node?_of_ne
    (h : IsAfter d extras output done now) {l : List LooseText}
    (hl : ∀ moduleName, l ≠ (targetIn output moduleName).location) :
  now.tree.node? l = d.tree.node? l
  := by
  have hnone : done.filterMap (writtenTo d extras output l) = [] := by
    rw [List.filterMap_eq_nil_iff]
    intro input _
    cases hwritten : writtenTo d extras output l input with
    | none => rfl
    | some bytes => exact absurd (of_writtenTo hwritten).1 (hl _)
  rw [h.node?, hnone]
  rfl

/-- The directories are those of the start. -/
theorem node?_eq_directory_iff (h : IsAfter d extras output done now) (l : List LooseText) :
  now.tree.node? l = some .directory ↔ d.tree.node? l = some .directory
  := by
  rw [h.node?]
  cases hlast : (done.filterMap (writtenTo d extras output l)).getLast? with
  | none => simp
  | some bytes =>
      obtain ⟨input, -, hwritten⟩ := List.mem_filterMap.mp (List.mem_of_getLast? hlast)
      simp [(of_writtenTo hwritten).2]

/-- A further attempt leaves the disk on which its target has changed. -/
theorem concat
    (h : IsAfter d extras output done now) {t : Tree}
    (ht : ∀ l, t.node? l
      = ((writtenTo d extras output l input).map Node.file).or (now.tree.node? l)) :
  IsAfter d extras output (done ++ [input]) { now with tree := t }
  := by
  refine ⟨h.tags, h.plan, ?_⟩
  intro l
  rw [ht, h.node?, List.filterMap_append, List.getLast?_append]
  cases hwritten : writtenTo d extras output l input <;> simp [hwritten]

end IsAfter

/-! ### One attempt -/

/-- A schema file of the folder is a file, and lies where no target does. -/
theorem of_mem_schemaFilesIn (output : Path) (h : input ∈ d.schemaFilesIn folder names) :
  d.kindOf input = .ok .file ∧
    ∀ moduleName, input.location ≠ (targetIn output moduleName).location
  := by
  obtain ⟨hmem, hselected⟩ := List.mem_filter.mp h
  obtain ⟨name, -, rfl⟩ := List.mem_map.mp hmem
  rw [Disk.isSchemaFile, Bool.and_eq_true, decide_eq_true_eq] at hselected
  obtain ⟨hsuffix, hkind⟩ := hselected
  use hkind
  have hlast : name.getLast? = some (.char 'l') := by
    rw [← Path.name_child folder name]
    rcases List.mem_pair.mp (List.contains_iff_mem.mp hsuffix) with heq | heq
    · rw [Path.getLast?_name (by simp [heq, LooseText.ofString]), heq]
      rfl
    · rw [Path.getLast?_name (by simp [heq, LooseText.ofString]), heq]
      rfl
  have hsettled := Path.getLast?_settled hlast
  intro moduleName heq
  rw [Path.location_child folder (LooseText.ne_up hsettled (by decide)), location_targetIn] at heq
  obtain ⟨-, hname⟩ := List.append_inj' heq rfl
  rw [List.cons.inj hname |>.1, getLast?_elm] at hsettled
  simp at hsettled

theorem location_temporaryName_ne (output : Path) (name tag moduleName : String) :
  (output.file (temporaryName name tag)).location ≠ (targetIn output moduleName).location
  := by
  have hlast := getLast?_temporaryName name tag
  rw [output.location_file (temporaryName_ne_up name tag), location_targetIn]
  intro heq
  rw [List.cons.inj (List.append_cancel_left heq) |>.1, getLast?_elm] at hlast
  simp at hlast

/-- A schema file is read as it was at the start. -/
theorem IsAfter.read
    (h : IsAfter d extras output done now) (hinput : input ∈ d.schemaFilesIn folder names) :
  now.read input = .ok (contentsAt d input)
  := by
  obtain ⟨hkind, hne⟩ := of_mem_schemaFilesIn output hinput
  obtain ⟨hfault, bytes, hfind⟩ := Disk.exists_file_of_kindOf hkind
  have hnode : d.tree.node? input.location = some (.file bytes) := Tree.node?_of_find hfind
  have hcontents : contentsAt d input = bytes := by
    rw [contentsAt, hnode]
  obtain ⟨e, hfind', he⟩ := Tree.find_mono hfind (fun l hl => (h.node?_eq_directory_iff l).mpr hl)
    ((h.node?_of_ne hne).trans hnode)
  rw [hcontents]
  exact Disk.read_eq_ok hfault (Tree.eq_file_of_node he ▸ hfind')

/-- The temporary file of a target is the one of the start. -/
theorem IsAfter.createTemporary
    (h : IsAfter d extras output done now) (hplan : d.plan = [])
    (hnormal : output.normalize = output) {moduleName : String} {temporary : Path}
    (htemporary :
      (d.createTemporary output (Writer.temporaryStart (targetIn output moduleName)) ".tmp").1
        = .ok temporary) :
  (now.createTemporary output (Writer.temporaryStart (targetIn output moduleName)) ".tmp").1
    = .ok temporary
  := by
  apply createTemporary_mono hplan h.plan h.tags hnormal
    (fun l hl => (h.node?_eq_directory_iff l).mpr hl) _ htemporary
  intro tag
  apply h.node?_of_ne
  intro other
  apply location_temporaryName_ne

/-- An attempt that does not convert its file leaves the disk as it was. -/
theorem IsAfter.concat_of_not_converted
    (h : IsAfter d extras output done now)
    (hfate : (attemptOn d extras output input).fate.isConverted = false) :
  IsAfter d extras output (done ++ [input]) now
  := by
  apply h.concat
  intro l
  have hnone : writtenTo d extras output l input = none := by
    unfold writtenTo
    split
    · rename_i code hcode
      simp [hcode, Fate.isConverted] at hfate
    · rfl
  rw [hnone]
  rfl

theorem log_of_not_converted
    {events : List Event} {fate : Fate} (h : fate.isConverted = false) (verbose : Bool)
    (target : Path) :
  Attempt.log verbose target ⟨events, fate⟩ = .ofEvents verbose events
  := by
  cases fate with
  | converted code => simp [Fate.isConverted] at h
  | failed message => rw [Attempt.log, Transcript.append_empty]
  | crashed e => rw [Attempt.log, Transcript.append_empty]

/-- A file whose text gives no module fails, and nothing changes. -/
theorem run_convert_of_error
    {verbose : Bool} {settings : Settings} {text : String} {events : List Event}
    {e : GenerationError} (hread : textOfRead (now.read input) = .ok text)
    (hgenerate : (Source.text text).generate conversionCalls input.moduleName settings.extras
      = (events, .error e)) :
  now.run (convert verbose settings (some output) input)
    = ((.ofEvents verbose (.converting input.text input.moduleName :: events),
        .error (.ofGeneration e)), now)
  := by
  rw [convert]
  dsimp only
  rw [Disk.run_bind, run_readSchema, hread]
  dsimp only
  rw [hgenerate, Transcript.ofEvents_cons verbose _ events]
  rfl

/-- A run is an attempt at a file after others: it prints and gives what the attempt would on
the disk of the start, and leaves a disk after one more attempt. -/
def IsStep (verbose : Bool) (d : Disk) (extras : Extras) (output : Path) (done : List Path)
    (input : Path) (run : (Transcript × Except ConversionFailure Unit) × Disk) : Prop :=
  run.1 = ((attemptOn d extras output input).log verbose (targetIn output input.moduleName),
      (attemptOn d extras output input).fate.result) ∧
    IsAfter d extras output (done ++ [input]) run.2

variable {settings : Settings} (verbose : Bool)

/-- A file whose text gives a module is delivered, unless a directory stands in the place of its
target. -/
theorem isStep_convert_of_generate
    (hextension : settings.outputExtension = .string ".elm")
    (hpolicy : settings.writePolicy = .ok ⟨true, true⟩) (hready : IsReady d folder output names)
    (hnormal : output.normalize = output) (h : IsAfter d settings.extras output done now)
    (hinput : input ∈ d.schemaFilesIn folder names) {cs : List Char} {events : List Event}
    {code : String} (hdecode : decodeText (contentsAt d input) = .ok cs)
    (hgenerate : (Source.text (String.ofList cs)).generate conversionCalls input.moduleName
      settings.extras = (events, .ok code)) :
  IsStep verbose d settings.extras output done input
    (now.run (convert verbose settings (some output) input))
  := by
  let target := targetIn output input.moduleName
  have htext : textOfRead (now.read input) = .ok (String.ofList cs) := by
    rw [h.read hinput, textOfRead, hdecode]
  have hkept : ∀ l, d.tree.node? l = some .directory → now.tree.node? l = some .directory :=
    fun l hl => (h.node?_eq_directory_iff l).mpr hl
  have hiff := h.node?_eq_directory_iff target.location
  obtain ⟨temporary, htemporary⟩ := hready.temporary input hinput
  obtain ⟨t, hrun, hnodes⟩ := exists_deliver verbose hextension hpolicy
    (checkCode_of_generate hgenerate) input.isAlphanum_moduleName h.plan hnormal hready.printable
    (Disk.kindOf_directory_mono hready.directory hkept)
    (h.createTemporary hready.plan hnormal htemporary)
  rw [run_convert htext hgenerate, hrun]
  -- Now and at the start the same directories are there, so the target is blocked now just if it
  -- was at the start.
  by_cases hblocked : d.tree.node? target.location = some .directory
  · have hobstacle : obstacleAt d output input.moduleName
        = some (blockedMessage target temporary) := by
      simp only [obstacleAt, target, if_pos hblocked, htemporary]
    have hattempt : attemptOn d settings.extras output input
        = ⟨.converting input.text input.moduleName :: events,
          .failed (blockedMessage target temporary)⟩ := by
      simp only [attemptOn, attempt, hdecode, hgenerate, hobstacle]
    rw [if_pos (hiff.mpr hblocked)]
    constructor
    · rw [hattempt, log_of_not_converted rfl]
      dsimp only
      rw [← Transcript.ofEvents_append, ← Transcript.ofEvents_append, List.append_nil]
      rfl
    · apply h.concat
      intro l
      have hnone : writtenTo d settings.extras output l input = none := by
        rw [writtenTo, hattempt]
      rw [hnodes, hnone, if_neg]
      · rfl
      · rintro ⟨rfl, hnot⟩
        exact hnot (hiff.mpr hblocked)
  · have hobstacle : obstacleAt d output input.moduleName = none :=
      obstacleAt_eq_none_iff.mpr hblocked
    have hfree : now.tree.node? target.location ≠ some .directory :=
      fun hdirectory => hblocked (hiff.mp hdirectory)
    have hattempt : attemptOn d settings.extras output input
        = ⟨.converting input.text input.moduleName :: events ++ [.wrote target.text],
          .converted code⟩ := by
      simp only [attemptOn, attempt, hdecode, hgenerate, hobstacle, target]
    rw [if_neg hfree]
    constructor
    · rw [hattempt]
      dsimp only [Attempt.log]
      rw [← Transcript.append_assoc, ← Transcript.ofEvents_append, ← Transcript.ofEvents_append]
      rfl
    · apply h.concat
      intro l
      rw [hnodes, writtenTo, hattempt]
      by_cases hl : l = target.location
      · rw [if_pos ⟨hl, hl ▸ hfree⟩]
        simp [hl, target]
      · rw [if_neg (fun h => hl h.1)]
        simp [hl, target]

/-- What becomes of a file in the course of a batch is what would become of it at the start. -/
theorem isStep_convert
    (hextension : settings.outputExtension = .string ".elm")
    (hpolicy : settings.writePolicy = .ok ⟨true, true⟩) (hready : IsReady d folder output names)
    (hnormal : output.normalize = output) (h : IsAfter d settings.extras output done now)
    (hinput : input ∈ d.schemaFilesIn folder names) :
  IsStep verbose d settings.extras output done input
    (now.run (convert verbose settings (some output) input))
  := by
  have hread := h.read hinput
  cases hdecode : decodeText (contentsAt d input) with
  | error f =>
      have hattempt : attemptOn d settings.extras output input
          = ⟨[.converting input.text input.moduleName],
            .failed ("Cannot read schema: " ++ f.message)⟩ := by
        rw [attemptOn, attempt, hdecode]
      have hrun : now.run (convert verbose settings (some output) input)
          = ((.ofEvents verbose [.converting input.text input.moduleName],
            .error (.reported ("Cannot read schema: " ++ f.message))), now) := by
        rw [convert]
        dsimp only
        rw [Disk.run_bind, run_readSchema, hread, textOfRead, hdecode]
        rfl
      rw [hrun]
      refine ⟨?_, h.concat_of_not_converted (hattempt ▸ rfl)⟩
      rw [hattempt, log_of_not_converted rfl]
      rfl
  | ok cs =>
      obtain ⟨⟨events, result⟩, hgenerate⟩ : ∃ run, (Source.text (String.ofList cs)).generate
          conversionCalls input.moduleName settings.extras = run := ⟨_, rfl⟩
      cases result with
      | ok code =>
          exact isStep_convert_of_generate verbose hextension hpolicy hready hnormal h hinput
            hdecode hgenerate
      | error e =>
          have hfate := Fate.isConverted_ofGeneration e
          have hattempt : attemptOn d settings.extras output input
              = ⟨.converting input.text input.moduleName :: events, .ofGeneration e⟩ := by
            simp only [attemptOn, attempt, hdecode, hgenerate]
          have htext : textOfRead (now.read input) = .ok (String.ofList cs) := by
            rw [hread, textOfRead, hdecode]
          rw [run_convert_of_error htext hgenerate]
          refine ⟨?_, h.concat_of_not_converted (hattempt ▸ hfate)⟩
          rw [hattempt, log_of_not_converted hfate, Fate.result_ofGeneration]

end

end ElmSchema.Command
