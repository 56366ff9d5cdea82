import ElmSchema.Output.Writer
import ElmSchema.Proofs.Disk.Directories
import ElmSchema.Proofs.Text.Loose

/-!
# Atomic writes

A file that is written by way of a temporary file is written whole or not at all, whichever
operations fail and whether or not the contents can be written as bytes. Either the target holds
the contents and nothing else has changed, or nothing that was there has changed. In both cases
missing directories on the way to the target may have been made. The temporary file stays only if
its removal fails, and then a warning names it.

The proof follows the writing. While directories are made, the tree grows by directories on
the way to the target. While the temporary file is held, the tree is such a tree with one
further file. Giving up removes this file, and the last move puts it in the place of the
target.
-/

namespace ElmSchema

open FileSystem

/-- A check that looks at no file and gives a verdict. -/
def Writer.quietCheck
    {m : Type → Type} [Monad m] {ε : Type} (verdict : Option Path → Except (WriteFailure ε) Unit) :
    WriteCheck m ε := fun temporary =>
  pure (verdict temporary)

/-! ### Recorded writing -/

namespace Follows

variable {ε : Type}

theorem discard (temporary : Path) :
  Follows (Writer.discard temporary) (Writer.discard temporary)
  := by
  apply bind (leadsTo _ _)
  intro result
  cases result with
  | error e => apply pure
  | ok there =>
      cases there with
      | false => apply pure
      | true =>
          apply bind (record _ _)
          intro removed
          cases removed <;> apply pure

theorem giveUp (temporary : Path) (checked : Bool) (failure : WriteFailure ε) :
  Follows (Writer.giveUp temporary checked failure) (Writer.giveUp temporary checked failure)
  := by
  apply bind (discard temporary)
  intro result
  cases result <;> apply pure

theorem runCheck
    (policy : WritePolicy) (verdict : Option Path → Except (WriteFailure ε) Unit)
    (temporary : Option Path) :
  Follows (Writer.runCheck policy (Writer.quietCheck verdict) temporary)
    (Writer.runCheck policy (Writer.quietCheck verdict) temporary)
  := by
  unfold Writer.runCheck
  split
  · apply pure
  · apply pure

theorem fill (file : Path) (contents : LooseText) :
  Follows (Writer.fill file contents : StateM Recording (Except (WriteFailure ε) Unit))
    (Writer.fill file contents)
  := by
  apply bind (record _ _)
  intro written
  cases written with
  | error e => apply pure
  | ok _ => cases Text.Utf8.encode? contents <;> apply pure

theorem fillAndMove
    (policy : WritePolicy) (verdict : Option Path → Except (WriteFailure ε) Unit)
    (target temporary : Path) (contents : LooseText) :
  Follows (Writer.fillAndMove policy (Writer.quietCheck verdict) target temporary contents)
    (Writer.fillAndMove policy (Writer.quietCheck verdict) target temporary contents)
  := by
  apply bind (fill temporary contents)
  intro filled
  cases filled with
  | error failure => apply giveUp
  | ok _ =>
      apply bind (runCheck policy verdict _)
      intro result
      cases result with
      | error failure => apply giveUp
      | ok _ =>
          apply bind (record _ _)
          intro moved
          cases moved with
          | error e => apply giveUp
          | ok _ => apply pure

/-- A recorded atomic write follows the write itself. -/
theorem writeAtomic
    (calls : Nat) (policy : WritePolicy)
    (verdict : Option Path → Except (WriteFailure ε) Unit) (target : Path)
    (contents : LooseText) :
  Follows (Writer.writeAtomic calls policy (Writer.quietCheck verdict) target contents)
    (Writer.writeAtomic calls policy (Writer.quietCheck verdict) target contents)
  := by
  apply bind (makeDirectoriesWithin _ _)
  intro made
  cases made with
  | error e => apply pure
  | ok _ =>
      apply bind (record _ _)
      intro created
      cases created with
      | error e => apply pure
      | ok temporary => apply fillAndMove

end Follows

/-! ### The temporary file -/

/-- A tree holds a temporary file: it has grown at some of the places, and has one further
file, which its path names. -/
structure Holding (places : List (List LooseText)) (before : Tree) (temporary : Path)
    (bytes : List UInt8) (t : Tree) : Prop where
  fresh : before.node? temporary.location = none
  file : t.node? temporary.location = some (.file bytes)
  others : ∀ l, l ≠ temporary.location → t.node? l = before.node? l ∨
    (before.node? l = none ∧ t.node? l = some .directory ∧ l ∈ places)
  named : ∃ s, t.Names temporary s
  faultless : temporary.fault? = none

namespace Holding

variable {places : List (List LooseText)} {before t t' : Tree} {temporary target : Path}
  {bytes others : List UInt8}

theorem of_createFile
    (hgrown : before.Grown places t) (hfault : temporary.fault? = none)
    (h : t.createFile temporary = .ok t') :
  Holding places before temporary [] t'
  := by
  obtain ⟨⟨s, hs⟩, hnone, hnodes⟩ := Tree.create_eq_ok rfl h
  constructor
  · rcases hgrown temporary.location with heq | ⟨hbefore, -⟩
    · rw [← heq, hnone]
    · apply hbefore
  · rw [hnodes, if_pos rfl]
    rfl
  · intro l hl
    rw [hnodes, if_neg hl]
    apply hgrown
  · use s
    apply hs.mono
    intro l hl
    rw [hnodes, if_neg, hl]
    rintro rfl
    simp [hnone] at hl
  · apply hfault

/-- The temporary file may get other contents. -/
theorem writeFile
    (h : Holding places before temporary bytes t) (hwrite : t.writeFile temporary others = .ok t') :
  Holding places before temporary others t'
  := by
  obtain ⟨-, hnodes⟩ := Tree.writeFile_eq_ok hwrite
  obtain ⟨s, hs⟩ := h.named
  constructor
  · apply h.fresh
  · rw [hnodes, if_pos rfl]
  · intro l hl
    rw [hnodes, if_neg hl]
    apply h.others l hl
  · use s
    apply hs.mono
    intro l hl
    rw [hnodes, if_neg, hl]
    rintro rfl
    simp [h.file] at hl
  · apply h.faultless

/-- Without the temporary file, the tree has grown and no more. -/
theorem removeFile
    (h : Holding places before temporary bytes t) (hremove : t.removeFile temporary = .ok t') :
  before.Grown places t'
  := by
  obtain ⟨-, hnodes⟩ := Tree.removeFile_eq_ok hremove
  intro l
  rw [hnodes]
  split
  · rename_i hl
    rw [hl, h.fresh]
    left
    rfl
  · rename_i hl
    apply h.others l hl

/-- After the move, the target holds the bytes, and the rest of the tree has grown and no
more. -/
theorem rename
    (h : Holding places before temporary bytes t) (hmove : t.rename temporary target = .ok t') :
  t'.find target = .ok (.file bytes) ∧
    ∀ l, l ≠ target.location → t'.node? l = before.node? l ∨
      (before.node? l = none ∧ t'.node? l = some .directory ∧ l ∈ places)
  := by
  obtain ⟨⟨s, hs⟩, htarget, hnodes⟩ := Tree.rename_eq_ok h.file hmove
  constructor
  · have hnamed : t'.Names target s := by
      apply hs.mono
      intro l hl
      rw [hnodes, if_neg, if_neg, hl]
      · rintro rfl
        simp [h.file] at hl
      · rintro rfl
        apply htarget hl
    apply hnamed.find_eq_file
    rw [hnodes, if_pos rfl]
  · intro l hl
    rw [hnodes, if_neg hl]
    split
    · rename_i htemporary
      rw [htemporary, h.fresh]
      left
      rfl
    · rename_i htemporary
      apply h.others l htemporary

/-- The temporary file is found. -/
theorem kindOf {d : Disk} (h : Holding places before temporary bytes d.tree) :
  d.kindOf temporary = .ok .file
  := by
  obtain ⟨s, hs⟩ := h.named
  rw [Disk.kindOf, hs.find_eq_file h.file]
  apply Disk.observe_of_fault?_eq_none h.faultless

end Holding

/-! ### Giving up -/

/-- Nothing that was there has changed. There may be new directories on the way to the
target, and the temporary file that is left, if one is. -/
structure IsUndone (target : Path) (left : Option Path) (before after : Tree) : Prop where
  kept : ∀ l n, before.node? l = some n → after.node? l = some n
  added : ∀ l, before.node? l = none → after.node? l = none ∨
    (after.node? l = some .directory ∧ l ∈ target.parent.stations) ∨
    ∃ temporary ∈ left, l = temporary.location
  left : ∀ temporary ∈ left, before.node? temporary.location = none ∧
    ∃ bytes, after.node? temporary.location = some (.file bytes)

theorem isUndone_of_grown
    {target : Path} {before after : Tree} (h : before.Grown target.parent.stations after) :
  IsUndone target none before after
  := by
  constructor
  · intro l n hn
    apply h.node?_eq_some hn
  · intro l hnone
    rcases h l with heq | ⟨-, hdirectory, hl⟩
    · left
      rw [heq, hnone]
    · right
      left
      use hdirectory, hl
  · simp

theorem isUndone_of_holding
    {target temporary : Path} {before after : Tree} {bytes : List UInt8}
    (h : Holding target.parent.stations before temporary bytes after) :
  IsUndone target (some temporary) before after
  := by
  constructor
  · intro l n hn
    have hl : l ≠ temporary.location := by
      rintro rfl
      simp [h.fresh] at hn
    rcases h.others l hl with heq | ⟨hnone, -, -⟩
    · rw [heq, hn]
    · simp [hn] at hnone
  · intro l hnone
    by_cases hl : l = temporary.location
    · right
      right
      use temporary, rfl
    · rcases h.others l hl with heq | ⟨-, hdirectory, hmem⟩
      · left
        rw [heq, hnone]
      · right
        left
        use hdirectory, hmem
  · intro temporary' hmem
    obtain rfl : temporary = temporary' := by simpa using hmem
    use h.fresh, bytes, h.file

theorem run_isPresent
    {places : List (List LooseText)} {before : Tree} {temporary : Path} {bytes : List UInt8}
    {r : Recording} (h : Holding places before temporary bytes r.disk.tree) :
  r.run (isPresent temporary) = (.ok true, ⟨r.disk, r.steps ++ [⟨.look temporary, none⟩]⟩)
  := by
  rw [isPresent, leadsTo, Recording.run_bind, Recording.run_kindOf, h.kindOf]
  rfl

/-- Giving up looks for the temporary file and removes it. If the removal fails, the file
stays and is reported. -/
theorem run_giveUp
    {ε : Type} {target temporary : Path} {before : Tree} {bytes : List UInt8} {r : Recording}
    (h : Holding target.parent.stations before temporary bytes r.disk.tree) (checked : Bool)
    (failure : WriteFailure ε) :
  ∃ (removal : Option FileError) (d : Disk),
    r.run (Writer.giveUp temporary checked failure)
        = (⟨(removal.map fun _ => .temporaryLeft temporary.text).toList, checked, .error failure⟩,
          ⟨d, r.steps ++ [⟨.look temporary, none⟩, ⟨.remove temporary, removal⟩]⟩) ∧
      IsUndone target (removal.map fun _ => temporary) before d.tree
  := by
  rw [Writer.giveUp, Writer.discard, Recording.run_bind, Recording.run_bind, run_isPresent h]
  dsimp only
  rw [Recording.run_bind]
  rcases Recording.remove_cases temporary ⟨r.disk, r.steps ++ [⟨.look temporary, none⟩]⟩ with
    ⟨d, hrun, hremove⟩ | ⟨e, d, hrun, htree⟩
  · use none, d
    rw [hrun]
    constructor
    · simp [Recording.run_pure]
    · apply isUndone_of_grown (h.removeFile hremove)
  · use some e, d
    rw [hrun]
    constructor
    · simp [Recording.run_pure]
    · apply isUndone_of_holding
      rw [htree]
      apply h

/-! ### All or nothing -/

/-- Whether an error of an operation ends the writing. -/
def Operation.isDecisive : Operation → Bool
  | .createTemporary _ _ => true
  | .write _ => true
  | .rename _ _ => true
  | _ => false

/-- A temporary file has been made for a target. -/
def IsMade (target temporary : Path) (steps : List Step) : Prop :=
  ⟨.createTemporary target.parent (some temporary), none⟩ ∈ steps

section

variable {ε : Type}

/-- A run has written the contents. The target holds their bytes, and else there are only new
directories on the way to it. No decisive operation has failed, and the check, if asked for,
has accepted the contents. -/
structure Wrote (policy : WritePolicy) (verdict : Option Path → Except (WriteFailure ε) Unit)
    (target : Path) (contents : LooseText) (before : Disk) (run : WriteOutcome ε × Recording) :
    Prop where
  result : run.1.result = .ok ()
  events : run.1.events = [.wrote target.text]
  contents : ∃ bytes, Text.Utf8.encode? contents = some bytes ∧
    run.2.disk.read target = .ok bytes
  others : ∀ l, l ≠ target.location → run.2.disk.tree.node? l = before.tree.node? l ∨
    (before.tree.node? l = none ∧ run.2.disk.tree.node? l = some .directory ∧
      l ∈ target.parent.stations)
  faultless : ∀ step ∈ run.2.steps, step.operation.isDecisive → step.error? = none
  accepted : policy.validate →
    ∃ temporary, IsMade target temporary run.2.steps ∧ verdict (some temporary) = .ok ()

/-- A run has failed, and what it did is undone. A temporary file is left exactly if its
removal has failed, and then this is the one event. The failure is the refusal of the check,
the error of a step, or that the contents cannot be written as bytes; the error of a decisive
step and a refusal come through as they are. -/
structure GaveUp (policy : WritePolicy) (verdict : Option Path → Except (WriteFailure ε) Unit)
    (target : Path) (contents : LooseText) (before : Disk) (failure : WriteFailure ε)
    (left : Option Path) (run : WriteOutcome ε × Recording) : Prop where
  result : run.1.result = .error failure
  events : run.1.events = left.toList.map fun temporary => .temporaryLeft temporary.text
  warnings : ∀ event ∈ run.1.events, event.level = .warning
  undone : IsUndone target left before.tree run.2.disk.tree
  left_iff : ∀ temporary, temporary ∈ left ↔ IsMade target temporary run.2.steps ∧
    ∃ e, ⟨.remove temporary, some e⟩ ∈ run.2.steps
  cause : (∃ e, failure = .file e ∧ Explains run.2.steps e) ∨
    (failure = .unencodable contents ∧ Text.Utf8.encode? contents = none) ∨
    (policy.validate ∧ ∃ temporary, IsMade target temporary run.2.steps ∧
      verdict (some temporary) = .error failure)
  decisive : ∀ step ∈ run.2.steps, step.operation.isDecisive → ∀ e, step.error? = some e →
    failure = .file e
  refusal : run.1.checked → ∃ temporary, IsMade target temporary run.2.steps ∧
    ∀ why, verdict (some temporary) = .error why → failure = why

/-- The steps up to a point of the writing at which a temporary file has been made and nothing
decisive has failed. -/
structure Undisturbed (target temporary : Path) (steps : List Step) : Prop where
  made : IsMade target temporary steps
  faultless : ∀ step ∈ steps, step.operation.isDecisive → step.error? = none
  removals : ∀ step ∈ steps, ∀ p, step.operation ≠ .remove p

theorem Undisturbed.concat
    {target temporary : Path} {steps : List Step} {step : Step}
    (h : Undisturbed target temporary steps) (herror : step.error? = none)
    (hremove : ∀ p, step.operation ≠ .remove p) :
  Undisturbed target temporary (steps ++ [step])
  := by
  constructor
  · apply List.mem_append_left _ h.made
  · rw [List.forall_mem_append, List.forall_mem_singleton]
    use h.faultless, fun _ => herror
  · rw [List.forall_mem_append, List.forall_mem_singleton]
    use h.removals, hremove

variable {policy : WritePolicy} {verdict : Option Path → Except (WriteFailure ε) Unit}
  {target temporary : Path} {contents : LooseText} {bytes : List UInt8} {before : Disk}
  {r : Recording}

/-- Giving up after undisturbed steps and possibly one that failed. -/
theorem gaveUp_of_giveUp
    {steps failed : List Step} {failure : WriteFailure ε} {checked : Bool}
    (hundisturbed : Undisturbed target temporary steps) (hsteps : r.steps = steps ++ failed)
    (hfailed : ∀ step ∈ failed, (∀ e, step.error? = some e → failure = .file e) ∧
      ∀ p, step.operation ≠ .remove p)
    (hholding : Holding target.parent.stations before.tree temporary bytes r.disk.tree)
    (hcause : (∃ e, failure = .file e ∧ Explains r.steps e) ∨
      (failure = .unencodable contents ∧ Text.Utf8.encode? contents = none) ∨
      (policy.validate ∧ verdict (some temporary) = .error failure))
    (hrefusal : checked → ∀ why, verdict (some temporary) = .error why → failure = why) :
  ∃ left, GaveUp policy verdict target contents before failure left
    (r.run (Writer.giveUp temporary checked failure))
  := by
  obtain ⟨removal, d, hrun, hundone⟩ := run_giveUp hholding checked failure
  have hmade : IsMade target temporary
      (r.steps ++ [⟨.look temporary, none⟩, ⟨.remove temporary, removal⟩]) := by
    rw [hsteps, List.append_assoc]
    apply List.mem_append_left _ hundisturbed.made
  rw [hrun]
  use removal.map fun _ => temporary
  constructor
  · rfl
  · cases removal <;> rfl
  · cases removal <;> simp [Event.level]
  · apply hundone
  · intro other
    constructor
    · intro hother
      obtain ⟨e, rfl, rfl⟩ : ∃ e, removal = some e ∧ temporary = other := by
        simpa [Option.map_eq_some_iff] using hother
      use hmade, e
      simp
    · rintro ⟨-, e, hremove⟩
      rw [hsteps] at hremove
      simp only [List.mem_append, List.mem_cons, List.not_mem_nil, or_false, Step.mk.injEq,
        reduceCtorEq, false_and, false_or] at hremove
      rcases hremove with (hstep | hstep) | ⟨hother, rfl⟩
      · apply absurd rfl (hundisturbed.removals _ hstep other)
      · apply absurd rfl ((hfailed _ hstep).2 other)
      · obtain rfl : other = temporary := by simpa using hother
        rfl
  · rcases hcause with ⟨e, hfailure, hexplains⟩ | hhalf | ⟨hvalidate, hverdict⟩
    · left
      use e, hfailure
      apply hexplains.append
    · right
      left
      apply hhalf
    · right
      right
      use hvalidate, temporary, hmade
  · intro step hstep hdecisive e herror
    rw [hsteps] at hstep
    simp only [List.mem_append, List.mem_cons, List.not_mem_nil, or_false] at hstep
    rcases hstep with (hstep | hstep) | rfl | rfl
    · simp [hundisturbed.faultless step hstep hdecisive] at herror
    · apply (hfailed step hstep).1 e herror
    · simp at herror
    · simp [Operation.isDecisive] at hdecisive
  · intro hchecked
    use temporary, hmade
    apply hrefusal hchecked

/-- Giving up after undisturbed steps and one that failed. -/
theorem gaveUp_of_step
    {steps : List Step} {operation : Operation} {e : FileError} {checked : Bool}
    (hundisturbed : Undisturbed target temporary steps)
    (hsteps : r.steps = steps ++ [⟨operation, some e⟩])
    (hoperation : ∀ p, operation ≠ .remove p)
    (hholding : Holding target.parent.stations before.tree temporary bytes r.disk.tree)
    (haccepted : checked → ∀ why, verdict (some temporary) ≠ .error why) :
  ∃ left, GaveUp policy verdict target contents before (.file e) left
    (r.run (Writer.giveUp temporary checked (.file e)))
  := by
  apply gaveUp_of_giveUp hundisturbed hsteps _ hholding
  · left
    use e, rfl
    rw [hsteps]
    apply explains_concat steps e hoperation
  · intro hchecked why hwhy
    apply absurd hwhy (haccepted hchecked why)
  · intro step hstep
    obtain rfl := List.mem_singleton.mp hstep
    constructor
    · intro e' he'
      obtain rfl : e = e' := by simpa using he'
      rfl
    · apply hoperation

theorem run_runCheck (r : Recording) :
  r.run (Writer.runCheck policy (Writer.quietCheck verdict) (some temporary))
    = (if policy.validate then verdict (some temporary) else .ok (), r)
  := by
  rw [Writer.runCheck]
  split
  · rfl
  · rfl

/-- A file gets the bytes of its contents, or the contents have none and it gets nothing, or the
write fails and the file may have got others. -/
theorem fill_cases (file : Path) (contents : LooseText) (r : Recording) :
  (∃ bytes d, Text.Utf8.encode? contents = some bytes ∧
      r.run (Writer.fill file contents)
        = ((.ok () : Except (WriteFailure ε) Unit), ⟨d, r.steps ++ [⟨.write file, none⟩]⟩) ∧
      r.disk.tree.writeFile file bytes = .ok d.tree) ∨
    (∃ d, Text.Utf8.encode? contents = none ∧
      r.run (Writer.fill file contents)
        = ((.error (.unencodable contents) : Except (WriteFailure ε) Unit),
          ⟨d, r.steps ++ [⟨.write file, none⟩]⟩) ∧
      r.disk.tree.writeFile file [] = .ok d.tree) ∨
    ∃ e d, r.run (Writer.fill file contents)
        = ((.error (.file e) : Except (WriteFailure ε) Unit),
          ⟨d, r.steps ++ [⟨.write file, some e⟩]⟩) ∧
      (d.tree = r.disk.tree ∨ ∃ others, r.disk.tree.writeFile file others = .ok d.tree)
  := by
  rw [Writer.fill, Recording.run_bind]
  rcases Recording.write_cases file ((Text.Utf8.encode? contents).getD []) r with
    ⟨d, hrun, hwrite⟩ | ⟨e, d, hrun, htree⟩
  · rw [hrun]
    cases hbytes : Text.Utf8.encode? contents with
    | some bytes =>
        rw [hbytes] at hwrite
        left
        use bytes, d, rfl, rfl, hwrite
    | none =>
        rw [hbytes] at hwrite
        right
        left
        use d, rfl, rfl, hwrite
  · rw [hrun]
    right
    right
    use e, d, rfl, htree

/-- With a temporary file made, the contents are written or the writing is given up. -/
theorem fillAndMove_cases
    (hundisturbed : Undisturbed target temporary r.steps)
    (hholding : Holding target.parent.stations before.tree temporary bytes r.disk.tree) :
  Wrote policy verdict target contents before
      (r.run (Writer.fillAndMove policy (Writer.quietCheck verdict) target temporary contents)) ∨
    ∃ failure left, GaveUp policy verdict target contents before failure left
      (r.run (Writer.fillAndMove policy (Writer.quietCheck verdict) target temporary contents))
  := by
  have hsteps : Undisturbed target temporary (r.steps ++ [⟨.write temporary, none⟩]) := by
    apply hundisturbed.concat rfl
    simp
  rw [Writer.fillAndMove, Recording.run_bind]
  rcases fill_cases temporary contents r with
    ⟨bytes', d, hbytes, hrun, hwrite⟩ | ⟨d, hnone, hrun, hwrite⟩ | ⟨e, d, hrun, htree⟩
  · rw [hrun]
    dsimp only
    rw [Recording.run_bind, run_runCheck]
    have hwritten := hholding.writeFile hwrite
    cases hcheck : (if policy.validate then verdict (some temporary) else .ok ()) with
    | error failure =>
        obtain ⟨hvalidate, hverdict⟩ :
            policy.validate ∧ verdict (some temporary) = .error failure := by
          split at hcheck
          · rename_i hvalidate
            use hvalidate
          · simp at hcheck
        right
        use failure
        apply gaveUp_of_giveUp hsteps (List.append_nil _).symm (by simp) hwritten
        · right
          right
          use hvalidate
        · intro _ why hwhy
          simpa [hverdict] using hwhy
    | ok _ =>
        have hverdict : policy.validate → verdict (some temporary) = .ok () := by
          intro hvalidate
          simpa [hvalidate] using hcheck
        dsimp only
        rw [Recording.run_bind]
        rcases Recording.rename_cases temporary target
            ⟨d, r.steps ++ [⟨.write temporary, none⟩]⟩ with
          ⟨d', hrun', hmove, hfault⟩ | ⟨e, d', hrun', htree⟩
        · rw [hrun']
          obtain ⟨hfind, hothers⟩ := hwritten.rename hmove
          have hsteps' : Undisturbed target temporary
              (r.steps ++ [⟨.write temporary, none⟩] ++ [⟨.rename temporary target, none⟩]) := by
            apply hsteps.concat rfl
            simp
          left
          constructor
          · rfl
          · rfl
          · use bytes', hbytes
            apply Disk.read_eq_ok hfault hfind
          · apply hothers
          · apply hsteps'.faultless
          · intro hvalidate
            use temporary, hsteps'.made, hverdict hvalidate
        · rw [hrun']
          right
          use .file e
          apply gaveUp_of_step hsteps rfl (by simp) (htree ▸ hwritten)
          intro hvalidate why
          simp [hverdict hvalidate]
  · rw [hrun]
    right
    use .unencodable contents
    apply gaveUp_of_giveUp hsteps (List.append_nil _).symm (by simp) (hholding.writeFile hwrite)
    · right
      left
      use rfl, hnone
    · simp
  · have hholding' : ∃ others,
        Holding target.parent.stations before.tree temporary others d.tree := by
      rcases htree with htree | ⟨others, hwrite⟩
      · use bytes
        rw [htree]
        apply hholding
      · use others
        apply hholding.writeFile hwrite
    obtain ⟨others, hholding'⟩ := hholding'
    rw [hrun]
    right
    use .file e
    apply gaveUp_of_step hundisturbed rfl (by simp) hholding'
    simp

/-- Failing before a temporary file is made. -/
theorem gaveUp_of_grown
    {d : Disk} {steps : List Step} {e : FileError}
    (hgrown : before.tree.Grown target.parent.stations d.tree)
    (hremovals : ∀ step ∈ steps, ∀ p, step.operation ≠ .remove p) (hexplains : Explains steps e)
    (hdecisive : ∀ step ∈ steps, step.operation.isDecisive → ∀ e', step.error? = some e' → e' = e) :
  GaveUp policy verdict target contents before (.file e) none (Writer.failed false e, ⟨d, steps⟩)
  := by
  constructor
  · rfl
  · rfl
  · simp [Writer.failed]
  · apply isUndone_of_grown hgrown
  · intro temporary
    constructor
    · intro h
      simp at h
    · rintro ⟨-, e', hremove⟩
      apply absurd rfl (hremovals _ hremove temporary)
  · left
    use e, rfl
  · intro step hstep hop e' he'
    rw [hdecisive step hstep hop e' he']
  · intro hchecked
    simp [Writer.failed] at hchecked

theorem ne_remove_of_isPreparation
    {operation : Operation} (h : operation.isPreparation) (p : Path) :
  operation ≠ .remove p
  := by
  rintro rfl
  simp [Operation.isPreparation] at h

theorem not_isDecisive_of_isPreparation {operation : Operation} (h : operation.isPreparation) :
  operation.isDecisive = false
  := by
  cases operation <;> simp_all [Operation.isPreparation, Operation.isDecisive]

/-- An atomic write writes the contents or is given up. -/
theorem writeAtomic_cases (calls : Nat) (d : Disk) :
  Wrote policy verdict target contents d ((Recording.mk d []).run
      (Writer.writeAtomic calls policy (Writer.quietCheck verdict) target contents)) ∨
    ∃ failure left, GaveUp policy verdict target contents d failure left ((Recording.mk d []).run
      (Writer.writeAtomic calls policy (Writer.quietCheck verdict) target contents))
  := by
  have hprepares :
      Prepares target.parent.stations (makeDirectories (calls + 1) target.parent) ⟨d, []⟩ :=
    Prepares.makeDirectoriesWithin _ _ _
  obtain ⟨⟨⟨new, hsteps, hpreparations⟩, hgrown⟩, hexplained⟩ := hprepares
  have hremovals : ∀ step ∈ new, ∀ p, step.operation ≠ .remove p := by
    intro step hstep
    apply ne_remove_of_isPreparation (hpreparations step hstep)
  have hindecisive : ∀ step ∈ new, step.operation.isDecisive = false := by
    intro step hstep
    apply not_isDecisive_of_isPreparation (hpreparations step hstep)
  rw [Writer.writeAtomic, Recording.run_bind]
  obtain ⟨⟨made, r⟩, hrun⟩ :
      ∃ run, (Recording.mk d []).run (makeDirectories (calls + 1) target.parent) = run := ⟨_, rfl⟩
  rw [hrun] at hsteps hgrown hexplained ⊢
  obtain ⟨d', steps⟩ := r
  obtain rfl : steps = new := hsteps
  cases made with
  | error e =>
      right
      use .file e, none
      apply gaveUp_of_grown hgrown hremovals (hexplained e rfl)
      intro step hstep hdecisive
      simp [hindecisive step hstep] at hdecisive
  | ok _ =>
      dsimp only
      rw [Recording.run_bind]
      rcases Recording.createTemporary_cases target.parent (Writer.temporaryStart target) ".tmp"
          ⟨d', steps⟩ with
        ⟨temporary, d'', hrun', hfault, hcreate⟩ | ⟨e, d'', hrun', htree⟩
      · rw [hrun']
        have hholding := Holding.of_createFile hgrown hfault hcreate
        apply fillAndMove_cases _ hholding
        constructor
        · simp [IsMade]
        · rw [List.forall_mem_append, List.forall_mem_singleton]
          constructor
          · intro step hstep hdecisive
            simp [hindecisive step hstep] at hdecisive
          · intro _
            rfl
        · rw [List.forall_mem_append, List.forall_mem_singleton]
          use hremovals
          simp
      · rw [hrun']
        right
        use .file e, none
        apply gaveUp_of_grown
        · rw [htree]
          apply hgrown
        · rw [List.forall_mem_append, List.forall_mem_singleton]
          use hremovals
          simp
        · apply explains_concat
          simp
        · rw [List.forall_mem_append, List.forall_mem_singleton]
          constructor
          · intro step hstep hdecisive
            simp [hindecisive step hstep] at hdecisive
          · intro _ e' he'
            apply (Option.some.inj he').symm

end

/-- An atomic write is all or nothing, on every disk, for all contents and whichever operations
fail. Its run is recorded, and the recording follows it. An error of the system is worded as a
failure to write the target, and a refusal keeps its wording. -/
theorem writeFile_all_or_nothing
    {ε : Type} (calls : Nat) (validate : Bool)
    (verdict : Option Path → Except (WriteFailure ε) Unit) (target : Path)
    (contents : LooseText) (d : Disk) :
  ∃ (outcome : WriteOutcome ε) (after : Disk) (steps : List Step),
    (Writer.writeFile calls ⟨validate, true⟩ (Writer.quietCheck verdict) target contents :
      StateM Disk (WriteOutcome ε)) d = (outcome, after) ∧
    (Recording.mk d []).run
        (Writer.writeFile calls ⟨validate, true⟩ (Writer.quietCheck verdict) target contents)
      = (outcome, ⟨after, steps⟩) ∧
    (Wrote ⟨validate, true⟩ verdict target contents d (outcome, ⟨after, steps⟩) ∨
      ∃ failure left,
        GaveUp ⟨validate, true⟩ verdict target contents d failure left
          (outcome, ⟨after, steps⟩) ∧
        (∀ wording e, failure = .file (.system e) → failure.message wording target
          = "Cannot write " ++ target.text ++ ": " ++ e.message) ∧
        ∀ wording why, failure = .refused why → failure.message wording target = wording why)
  := by
  obtain ⟨⟨outcome, after, steps⟩, hrun⟩ : ∃ run, (Recording.mk d []).run (Writer.writeAtomic
      (calls + 1) ⟨validate, true⟩ (Writer.quietCheck verdict) target contents) = run := ⟨_, rfl⟩
  have hfollows :=
    Follows.writeAtomic (calls + 1) ⟨validate, true⟩ verdict target contents ⟨d, []⟩
  rw [hrun] at hfollows
  use outcome, after, steps, hfollows, hrun
  rw [← hrun]
  rcases writeAtomic_cases (calls + 1) d with hwrote | ⟨failure, left, hgaveUp⟩
  · left
    apply hwrote
  · right
    use failure, left, hgaveUp
    constructor
    · rintro wording e rfl
      rfl
    · rintro wording why rfl
      rfl

end ElmSchema
