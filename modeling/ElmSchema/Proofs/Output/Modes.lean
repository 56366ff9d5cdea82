import ElmSchema.Proofs.Disk.Depth
import ElmSchema.Proofs.Disk.Sorted
import ElmSchema.Proofs.Output.Temporary

/-!
# The two ways of writing

A file is written in place, or by way of a temporary file. From the same disk, both ways succeed or
both fail. If the contents are not refused by the check and can be written as bytes, then both
leave the same tree. If they are refused, then writing in place leaves the tree as it was, and the
other way has at most made missing directories on the way to the target.

Contents that the check accepts but that cannot be written as bytes tell the two ways apart. By way
of a temporary file they change nothing, but in place the target is emptied or made before the
writing fails. The ways also differ where as many directories are missing as can be made in place,
since one less can be made with the call that the temporary file takes.

Both ways make the same directories. From there on, the outcome of each is determined by whether
the tree takes a file under the path of the target, so they agree on nodes. The nodes determine
the tree, as it stays sorted.
-/

namespace ElmSchema

open FileSystem

/-! ### Trees that take a file -/

/-- A tree takes a file under a path: the path names a slot, and no directory lies in it. -/
def Tree.Takes (t : Tree) (p : Path) : Prop :=
  p.fault? = none ∧ (∃ s, t.Names p s) ∧ t.node? p.location ≠ some .directory

theorem Tree.Takes.congr
    {t t' : Tree} {p : Path}
    (hsame : ∀ l, t.node? l = some .directory ↔ t'.node? l = some .directory) :
  t.Takes p ↔ t'.Takes p
  := by
  have hnames : (∃ s, t.Names p s) ↔ ∃ s, t'.Names p s := by
    constructor
    · rintro ⟨s, hs⟩
      exact ⟨s, hs.mono fun l => (hsame l).mp⟩
    · rintro ⟨s, hs⟩
      exact ⟨s, hs.mono fun l => (hsame l).mpr⟩
  rw [Takes, Takes, hnames, Ne, Ne, hsame]

namespace Writer

variable {ε : Type}

/-- A run ends as the writing of a file to a tree. If the tree takes the file, then it is there
and no other node has changed. If not, then the run fails and no node has changed. -/
inductive Places (t : Tree) (target : Path) (bytes : List UInt8)
    (run : WriteOutcome ε × Disk) : Prop where
  | written : t.Takes target → run.1.result = .ok () →
    (∀ l, run.2.tree.node? l = if l = target.location then some (.file bytes) else t.node? l) →
    Places t target bytes run
  | failed : ¬ t.Takes target → run.1.result ≠ .ok () →
    (∀ l, run.2.tree.node? l = t.node? l) → Places t target bytes run

/-- Runs that end in the same way agree. -/
theorem Places.agree
    {t : Tree} {target : Path} {bytes : List UInt8} {run run' : WriteOutcome ε × Disk}
    (h : Places t target bytes run) (h' : Places t target bytes run') :
  (run.1.result = .ok () ↔ run'.1.result = .ok ()) ∧
    ∀ l, run.2.tree.node? l = run'.2.tree.node? l
  := by
  cases h with
  | written htakes hresult hnodes =>
      cases h' with
      | written _ hresult' hnodes' =>
          constructor
          · simp [hresult, hresult']
          · intro l
            rw [hnodes, hnodes']
      | failed hnot _ _ => exact absurd htakes hnot
  | failed hnot hresult hnodes =>
      cases h' with
      | written htakes _ _ => exact absurd htakes hnot
      | failed _ hresult' hnodes' =>
          constructor
          · simp [hresult, hresult']
          · intro l
            rw [hnodes, hnodes']

variable {calls : Nat} {policy : WritePolicy} {check : WriteCheck (StateM Disk) ε} {d d₁ : Disk}
  {before : Tree} {target temporary : Path} {bytes : List UInt8} {contents : LooseText}

theorem places_of_failed
    (h : ¬ d.tree.Takes target) (checked : Bool) (failure : WriteFailure ε) :
  Places d.tree target bytes (⟨[], checked, .error failure⟩, d)
  := .failed h (by simp) fun _ => rfl

/-! ### Writing in place -/

theorem run_writeDirect_of_error
    {e : FileError} (contents : LooseText) (hcheck : runCheck policy check none = pure (.ok ()))
    (hmade : d.run (makeDirectories calls target.parent) = (.error e, d₁)) :
  d.run (writeDirect calls policy check target contents) = (failed policy.validate e, d₁)
  := by
  rw [writeDirect, hcheck, pure_bind, Disk.run_bind, hmade]
  rfl

theorem places_writeDirect
    (hbytes : Text.Utf8.encode? contents = some bytes)
    (hcheck : runCheck policy check none = pure (.ok ()))
    (hmade : d.run (makeDirectories calls target.parent) = (.ok (), d₁)) (hplan : d₁.plan = []) :
  Places d₁.tree target bytes (d.run (writeDirect calls policy check target contents))
  := by
  rw [writeDirect, hcheck, pure_bind, Disk.run_bind, hmade]
  dsimp only
  rw [Disk.run_bind, fill, Disk.run_bind, Disk.run_write, Disk.write_of_plan hplan, hbytes,
    Option.getD_some]
  rcases d₁.settle_cases [target] (d₁.tree.writeFile target bytes) with
    ⟨d₂, hsettle, hwrite, hfault⟩ | ⟨e, hsettle⟩
  · obtain ⟨hold, hnodes⟩ := Tree.writeFile_eq_ok hwrite
    rw [hsettle]
    apply Places.written _ rfl hnodes
    use hfault target List.mem_cons_self, Tree.exists_names_of_writeFile hwrite
  · rw [hsettle]
    apply places_of_failed
    rintro ⟨hfault, ⟨s, hs⟩, hdirectory⟩
    obtain ⟨t, hwrite⟩ := Tree.exists_writeFile hs hdirectory bytes
    rw [hwrite, Disk.settle_of_ok (by simpa using hfault)] at hsettle
    simp at hsettle

/-- Contents that cannot be written as bytes leave what empty contents would, but the writing
fails. -/
theorem run_writeDirect_of_unencodable
    (calls : Nat) (target : Path) (check' : WriteCheck (StateM Disk) ε) (d : Disk)
    (hnone : Text.Utf8.encode? contents = none)
    (hcheck : runCheck policy check none = pure (.ok ())) :
  (d.run (writeDirect calls policy check target contents)).1.result ≠ .ok () ∧
    (d.run (writeDirect calls policy check target contents)).2
      = (d.run (writeDirect calls ⟨false, false⟩ check' target [])).2
  := by
  have hempty : Text.Utf8.encode? [] = some [] := Text.Utf8.encode?_ofString ""
  have hunchecked : runCheck ⟨false, false⟩ check' none = pure (.ok ()) := rfl
  simp only [writeDirect, hcheck, hunchecked, pure_bind, Disk.run_bind]
  rcases d.run (makeDirectories calls target.parent) with ⟨e | _, d₁⟩
  · simp [Disk.run_pure, failed]
  · simp only [fill, Disk.run_bind, hnone, hempty, Option.getD_none, Option.getD_some]
    rcases d₁.run (write target []) with ⟨e | _, d₂⟩ <;> simp [Disk.run_pure]

/-! ### Writing by way of a temporary file -/

/-- A temporary file takes no directory away and adds none. -/
theorem node?_eq_directory_iff
    {t : Tree} (h : Holding [] before temporary bytes t) (l : List LooseText) :
  t.node? l = some .directory ↔ before.node? l = some .directory
  := by
  by_cases hl : l = temporary.location
  · simp [hl, h.file, h.fresh]
  · rw [node?_of_holding h hl]

theorem places_fillAndMove
    {others : List UInt8} (hothers : Text.Utf8.encode? contents = some others)
    (hcheck : runCheck policy check (some temporary) = pure (.ok ())) (hplan : d.plan = [])
    (h : Holding [] before temporary bytes d.tree) :
  Places before target others (d.run (fillAndMove policy check target temporary contents))
  := by
  obtain ⟨t, hwrite, hholding, -⟩ := exists_write hplan h others
  have hfill : d.run (fill temporary contents)
      = ((.ok () : Except (WriteFailure ε) Unit), { d with tree := t }) := by
    rw [run_fill_of_write (by rwa [hothers]), filled, hothers]
  have htakes : t.Takes target ↔ before.Takes target :=
    Tree.Takes.congr (node?_eq_directory_iff hholding)
  rw [fillAndMove, Disk.run_bind, hfill]
  dsimp only
  rw [hcheck, pure_bind, Disk.run_bind,
    Disk.run_rename_of_plan (d := { d with tree := t }) hplan]
  rcases Disk.settle_cases { d with tree := t } [temporary, target] (t.rename temporary target) with
    ⟨d₂, hsettle, hmove, hfault⟩ | ⟨e, hsettle⟩
  · rw [hsettle]
    dsimp only
    rw [Disk.run_pure]
    obtain ⟨hnames, hdirectory, -⟩ := Tree.rename_eq_ok hholding.file hmove
    obtain ⟨hfind, hothers⟩ := hholding.rename hmove
    apply Places.written _ rfl
    · intro l
      split
      · rename_i hl
        rw [hl]
        exact Tree.node?_of_find hfind
      · rename_i hl
        rcases hothers l hl with heq | ⟨-, -, hmem⟩
        · apply heq
        · simp at hmem
    · rw [← htakes]
      use hfault target (by simp), hnames
  · rw [hsettle]
    obtain ⟨t', hgiveUp, hnodes⟩ := exists_giveUp (d := { d with tree := t }) hplan hholding
      policy.validate (.file e : WriteFailure ε)
    dsimp only
    rw [hgiveUp]
    apply Places.failed _ (by simp) hnodes
    rw [← htakes]
    rintro ⟨hfault, ⟨r, hr⟩, hdirectory⟩
    obtain ⟨s, hs⟩ := hholding.named
    obtain ⟨t₂, hmove⟩ := Tree.exists_rename hs hr hholding.file hdirectory
    rw [hmove, Disk.settle_of_ok (by simp [hholding.faultless, hfault])] at hsettle
    simp at hsettle

theorem run_writeAtomic_of_error
    {e : FileError} (policy : WritePolicy) (check : WriteCheck (StateM Disk) ε)
    (contents : LooseText)
    (hmade : d.run (makeDirectories (calls + 1) target.parent) = (.error e, d₁)) :
  d.run (writeAtomic calls policy check target contents) = (failed false e, d₁)
  := by
  rw [writeAtomic, Disk.run_bind, hmade]
  rfl

/-- When the directories are there, no temporary file can be made, or one is and gets filled. -/
theorem run_writeAtomic_cases
    (policy : WritePolicy) (check : WriteCheck (StateM Disk) ε) (contents : LooseText)
    (hmade : d.run (makeDirectories (calls + 1) target.parent) = (.ok (), d₁))
    (hplan : d₁.plan = []) :
  (∃ e, (d₁.createTemporary target.parent (temporaryStart target) ".tmp").1 = .error e ∧
      d.run (writeAtomic calls policy check target contents) = (failed false e, d₁)) ∨
    ∃ temporary t, Holding [] d₁.tree temporary [] t ∧
      d.run (writeAtomic calls policy check target contents)
        = ({ d₁ with tree := t } : Disk).run (fillAndMove policy check target temporary contents)
  := by
  rw [writeAtomic, Disk.run_bind, hmade]
  dsimp only
  rw [Disk.run_bind, Disk.run_createTemporary, Disk.createTemporary_of_plan hplan]
  rcases d₁.createWith_cases target.parent.normalize (temporaryStart target) ".tmp" d₁.tags with
    ⟨temporary, d₂, hcreate, hfault, -⟩ | ⟨e, hcreate⟩
  · right
    obtain ⟨-, -, -, -, t, hcreated, rfl⟩ := Disk.createWith_eq_ok hcreate
    use temporary, t, .of_createFile (fun l => .inl rfl) hfault hcreated
    rw [hcreate]
  · left
    use e
    rw [hcreate]
    use rfl
    rfl

theorem isUnplanned_of_makeDirectories
    (hplan : d.plan = []) (hmade : d.run (makeDirectories calls target.parent) = (.ok (), d₁)) :
  d₁.IsUnplanned d.tags
  := by
  have := Disk.isUnplanned_makeDirectories d.tags calls target.parent d ⟨hplan, rfl⟩
  rwa [hmade] at this

theorem places_writeAtomic
    (hbytes : Text.Utf8.encode? contents = some bytes)
    (hcheck : ∀ temporary, runCheck policy check temporary = pure (.ok ()))
    (hroom : d.HasRoom target)
    (hmade : d.run (makeDirectories (calls + 1) target.parent) = (.ok (), d₁)) :
  Places d₁.tree target bytes (d.run (writeAtomic calls policy check target contents))
  := by
  have hunplanned := isUnplanned_of_makeDirectories hroom.unplanned hmade
  rcases run_writeAtomic_cases policy check contents hmade hunplanned.1 with
    ⟨e, hcreate, hrun⟩ | ⟨temporary, t, hholding, hrun⟩
  · rw [hrun]
    apply places_of_failed
    rintro ⟨hfault, -, -⟩
    have hgrown := d.grown_makeDirectories (calls + 1) target.parent
    rw [hmade] at hgrown
    obtain ⟨temporary, htemporary⟩ := exists_createTemporary hroom hunplanned hgrown
      (Disk.kindOf_of_makeDirectories hmade) hfault
    simp [hcreate] at htemporary
  · rw [hrun]
    exact places_fillAndMove (d := { d₁ with tree := t }) hbytes (hcheck _) hunplanned.1 hholding

/-! ### Contents that do not reach the target -/

/-- Contents do not get past the temporary file: they cannot be written as bytes, or the check
refuses them. -/
def IsStopped (policy : WritePolicy) (check : WriteCheck (StateM Disk) ε) (contents : LooseText) :
    Prop :=
  Text.Utf8.encode? contents = none ∨
    ∃ failure, ∀ temporary, runCheck policy check temporary = pure (.error failure)

theorem run_fillAndMove_of_isStopped
    (target : Path) (h : IsStopped policy check contents) (hplan : d.plan = [])
    (hholding : Holding [] before temporary bytes d.tree) :
  (d.run (fillAndMove policy check target temporary contents)).1.result ≠ .ok () ∧
    ∀ l, (d.run (fillAndMove policy check target temporary contents)).2.tree.node? l
      = before.node? l
  := by
  obtain ⟨t, hwrite, hheld, -⟩ :=
    exists_write hplan hholding ((Text.Utf8.encode? contents).getD [])
  have hgiveUp := fun checked (failure : WriteFailure ε) =>
    exists_giveUp (d := { d with tree := t }) hplan hheld checked failure
  rw [fillAndMove, Disk.run_bind, run_fill_of_write hwrite, filled]
  cases hbytes : Text.Utf8.encode? contents with
  | none =>
      obtain ⟨t', hrun, hnodes⟩ := hgiveUp false (.unencodable contents)
      dsimp only
      rw [hrun]
      use by simp, hnodes
  | some others =>
      obtain ⟨failure, hcheck⟩ := h.resolve_left (by simp [hbytes])
      obtain ⟨t', hrun, hnodes⟩ := hgiveUp policy.validate failure
      dsimp only
      rw [hcheck, pure_bind, hrun]
      use by simp, hnodes

/-- Contents that do not get past the temporary file are not written, and only the directories on
the way to the target are made. -/
theorem run_writeAtomic_of_isStopped
    (target : Path) (h : IsStopped policy check contents) (hplan : d.plan = []) :
  (d.run (writeAtomic calls policy check target contents)).1.result ≠ .ok () ∧
    ∀ l, (d.run (writeAtomic calls policy check target contents)).2.tree.node? l
      = (d.run (makeDirectories (calls + 1) target.parent)).2.tree.node? l
  := by
  obtain ⟨⟨made, d₁⟩, hmade⟩ : ∃ run, d.run (makeDirectories (calls + 1) target.parent) = run :=
    ⟨_, rfl⟩
  cases made with
  | error e =>
      rw [run_writeAtomic_of_error policy check contents hmade, hmade]
      use by simp [failed], fun _ => rfl
  | ok _ =>
      have hunplanned := isUnplanned_of_makeDirectories hplan hmade
      rcases run_writeAtomic_cases policy check contents hmade hunplanned.1 with
        ⟨e, -, hrun⟩ | ⟨temporary, t, hholding, hrun⟩
      · rw [hrun, hmade]
        use by simp [failed], fun _ => rfl
      · rw [hrun, hmade]
        exact run_fillAndMove_of_isStopped (d := { d₁ with tree := t }) target h hunplanned.1
          hholding

theorem grown_writeAtomic_of_isStopped
    (target : Path) (h : IsStopped policy check contents) (hplan : d.plan = []) :
  d.tree.Grown target.parent.stations
    (d.run (writeAtomic calls policy check target contents)).2.tree
  := by
  have hgrown := d.grown_makeDirectories (calls + 1) target.parent
  intro l
  rw [(run_writeAtomic_of_isStopped target h hplan).2]
  apply hgrown

/-! ### Both ways -/

/-- Contents that have bytes and are not refused lead to the same nodes in both ways. -/
theorem agree_of_accepted
    (policy policy' : WritePolicy) (hbytes : Text.Utf8.encode? contents = some bytes)
    (hcheck : ∀ temporary, runCheck policy check temporary = pure (.ok ()))
    (hcheck' : runCheck policy' check none = pure (.ok ())) (hroom : d.HasRoom target)
    (hsame : d.run (makeDirectories calls target.parent)
      = d.run (makeDirectories (calls + 1) target.parent)) :
  let atomic := d.run (writeAtomic calls policy check target contents)
  let direct := d.run (writeDirect calls policy' check target contents)
  (atomic.1.result = .ok () ↔ direct.1.result = .ok ()) ∧
    ∀ l, atomic.2.tree.node? l = direct.2.tree.node? l
  := by
  intro atomic direct
  obtain ⟨⟨made, d₁⟩, hmade⟩ : ∃ run, d.run (makeDirectories calls target.parent) = run := ⟨_, rfl⟩
  cases made with
  | error e =>
      have hatomic : atomic = (failed false e, d₁) :=
        run_writeAtomic_of_error policy check contents (hsame ▸ hmade)
      have hdirect : direct = (failed policy'.validate e, d₁) :=
        run_writeDirect_of_error contents hcheck' hmade
      rw [hatomic, hdirect]
      use by simp [failed], fun _ => rfl
  | ok _ =>
      have hunplanned := isUnplanned_of_makeDirectories hroom.unplanned hmade
      exact (places_writeAtomic hbytes hcheck hroom (hsame ▸ hmade)).agree
        (places_writeDirect hbytes hcheck' hmade hunplanned.1)

/-- Contents that have no bytes lead to the same nodes in both ways just if the target cannot be
emptied or is empty already. -/
theorem agree_of_unencodable_iff
    (policy policy' : WritePolicy) (check' : WriteCheck (StateM Disk) ε)
    (hnone : Text.Utf8.encode? contents = none)
    (hcheck : runCheck policy' check none = pure (.ok ())) (hplan : d.plan = [])
    (hsame : d.run (makeDirectories calls target.parent)
      = d.run (makeDirectories (calls + 1) target.parent)) :
  let atomic := d.run (writeAtomic calls policy check target contents)
  let direct := d.run (writeDirect calls policy' check target contents)
  let emptied := d.run (writeDirect calls ⟨false, false⟩ check' target [])
  (∀ l, atomic.2.tree.node? l = direct.2.tree.node? l) ↔
    emptied.1.result ≠ .ok () ∨ d.tree.node? target.location = some (.file [])
  := by
  intro atomic direct emptied
  have hatomic : ∀ l, atomic.2.tree.node? l
      = (d.run (makeDirectories calls target.parent)).2.tree.node? l :=
    hsame ▸ (run_writeAtomic_of_isStopped target (.inl hnone) hplan).2
  have hdirect : direct.2 = emptied.2 :=
    (run_writeDirect_of_unencodable calls target check' d hnone hcheck).2
  have hgrown := d.grown_makeDirectories calls target.parent
  obtain ⟨⟨made, d₁⟩, hmade⟩ : ∃ run, d.run (makeDirectories calls target.parent) = run := ⟨_, rfl⟩
  rw [hmade] at hatomic hgrown
  simp only [hatomic, hdirect]
  cases made with
  | error e =>
      have hemptied : emptied = (failed false e, d₁) := run_writeDirect_of_error [] rfl hmade
      simp [hemptied, failed]
  | ok _ =>
      have hunplanned := isUnplanned_of_makeDirectories hplan hmade
      have hplaces : Places d₁.tree target [] emptied :=
        places_writeDirect (Text.Utf8.encode?_ofString "") rfl hmade hunplanned.1
      cases hplaces with
      | written htakes hresult hnodes =>
          simp only [hnodes, hresult, ne_eq, not_true_eq_false, false_or]
          rw [← hgrown.node?_eq_file_iff]
          constructor
          · intro h
            simpa using h target.location
          · intro h l
            split
            · rename_i hl
              rw [hl, h]
            · rfl
      | failed hnot hresult hnodes => simp [hnodes, hresult]

/-! ### What writing keeps -/

section

variable {P : Disk → Prop}

theorem keeps_giveUp
    (h : Disk.IsKept P) (temporary : Path) (checked : Bool) (failure : WriteFailure ε) :
  Disk.Keeps P (giveUp temporary checked failure)
  := by
  have hdiscard : Disk.Keeps P (discard temporary) := by
    apply Disk.Keeps.bind (.leadsTo P _ _)
    intro result
    cases result with
    | error e => apply Disk.Keeps.pure
    | ok there =>
        cases there with
        | false => apply Disk.Keeps.pure
        | true =>
            apply Disk.Keeps.bind (h.remove temporary)
            intro removed
            cases removed <;> apply Disk.Keeps.pure
  apply Disk.Keeps.bind hdiscard
  intro result
  cases result <;> apply Disk.Keeps.pure

theorem keeps_runCheck
    (hcheck : ∀ temporary, Disk.Keeps P (check temporary)) (policy : WritePolicy)
    (temporary : Option Path) :
  Disk.Keeps P (runCheck policy check temporary)
  := by
  rw [runCheck]
  split
  · apply hcheck
  · apply Disk.Keeps.pure

theorem keeps_fill (h : Disk.IsKept P) (file : Path) (contents : LooseText) :
  Disk.Keeps P (fill file contents : StateM Disk (Except (WriteFailure ε) Unit))
  := by
  apply Disk.Keeps.bind (h.write _ _)
  intro written
  cases written with
  | error e => apply Disk.Keeps.pure
  | ok _ => cases Text.Utf8.encode? contents <;> apply Disk.Keeps.pure

theorem keeps_writeAtomic
    (h : Disk.IsKept P) (hcheck : ∀ temporary, Disk.Keeps P (check temporary))
    (calls : Nat) (policy : WritePolicy) (target : Path) (contents : LooseText) :
  Disk.Keeps P (writeAtomic calls policy check target contents)
  := by
  apply Disk.Keeps.bind (.makeDirectoriesWithin h.makeDirectory _ _)
  intro made
  cases made with
  | error e => apply Disk.Keeps.pure
  | ok _ =>
      apply Disk.Keeps.bind (h.createTemporary _ _ _)
      intro created
      cases created with
      | error e => apply Disk.Keeps.pure
      | ok temporary =>
          apply Disk.Keeps.bind (keeps_fill h _ _)
          intro filled
          cases filled with
          | error failure => apply keeps_giveUp h
          | ok _ =>
              apply Disk.Keeps.bind (keeps_runCheck hcheck policy _)
              intro result
              cases result with
              | error failure => apply keeps_giveUp h
              | ok _ =>
                  apply Disk.Keeps.bind (h.rename _ _)
                  intro moved
                  cases moved with
                  | error e => apply keeps_giveUp h
                  | ok _ => apply Disk.Keeps.pure

theorem keeps_writeDirect
    (h : Disk.IsKept P) (hcheck : ∀ temporary, Disk.Keeps P (check temporary))
    (calls : Nat) (policy : WritePolicy) (target : Path) (contents : LooseText) :
  Disk.Keeps P (writeDirect calls policy check target contents)
  := by
  apply Disk.Keeps.bind (keeps_runCheck hcheck policy _)
  intro result
  cases result with
  | error failure => apply Disk.Keeps.pure
  | ok _ =>
      apply Disk.Keeps.bind (.makeDirectoriesWithin h.makeDirectory _ _)
      intro made
      cases made with
      | error e => apply Disk.Keeps.pure
      | ok _ =>
          apply Disk.Keeps.bind (keeps_fill h _ _)
          intro filled
          cases filled <;> apply Disk.Keeps.pure

end

/-! ### The check of code -/

theorem runCheck_of_accepted
    (policy : WritePolicy) {code : LooseText} (h : policy.validate → checkCode code = .ok ())
    (temporary : Option Path) :
  runCheck policy (codeCheck code : WriteCheck (StateM Disk) Rejection) temporary = pure (.ok ())
  := by
  rw [runCheck]
  split
  · rename_i hvalidate
    rw [codeCheck, h hvalidate]
  · rfl

theorem exists_runCheck_of_refused {code : LooseText} (h : checkCode code ≠ .ok ()) :
  ∃ failure, ∀ policy : WritePolicy, policy.validate → ∀ temporary,
    runCheck policy (codeCheck code : WriteCheck (StateM Disk) Rejection) temporary
      = pure (.error failure)
  := by
  cases hcode : checkCode code with
  | ok _ => exact absurd hcode h
  | error why =>
      use .refused why
      intro policy hvalidate temporary
      rw [runCheck, if_pos hvalidate, codeCheck, hcode]

theorem run_writeDirect_of_refused
    {failure : WriteFailure ε} (target : Path) (contents : LooseText) (d : Disk)
    (hcheck : runCheck policy check none = pure (.error failure)) :
  d.run (writeDirect calls policy check target contents)
    = (⟨[], policy.validate, .error failure⟩, d)
  := by
  rw [writeDirect, hcheck, pure_bind]
  rfl

theorem keeps_writeFile_isSorted
    (calls : Nat) (policy : WritePolicy) (code : LooseText) (target : Path)
    (contents : LooseText) :
  Disk.Keeps (fun d => d.tree.IsSorted)
    (writeFile calls policy (codeCheck code) target contents)
  := by
  have hcheck : ∀ temporary, Disk.Keeps (fun d => d.tree.IsSorted)
      (codeCheck code temporary : StateM Disk (Except (WriteFailure Rejection) Unit)) :=
    fun _ => .pure _ _
  rw [writeFile]
  split
  · exact keeps_writeAtomic Disk.isKept_isSorted hcheck _ policy target contents
  · exact keeps_writeDirect Disk.isKept_isSorted hcheck _ policy target contents

end Writer

/-- Writing a file in place and by way of a temporary file, from the same disk. The missing
directories can be made in both ways or in neither. Then both ways succeed or both fail. Contents
that can be written as bytes leave the same tree in both ways, unless the check refuses them.
Contents that cannot are not written in either way. By way of a temporary file at most directories
on the way to the target are new, but in place the target is left empty, so the trees are the same
only if the target cannot be emptied or is empty already. Refused contents leave the tree as it was
when they are to be written in place, and otherwise at most directories on the way to the target
are new. -/
theorem writing_modes_agree
    (calls : Nat) (validate : Bool) (target : Path) (contents : LooseText) (d : SortedDisk)
    (hroom : d.HasRoom target)
    (hdepth : d.Reaches (calls + 2) target.parent ∨ ¬ d.Reaches (calls + 1) target.parent) :
  let check := Writer.codeCheck contents
  let atomic := d.run (Writer.writeFile calls ⟨validate, true⟩ check target contents)
  let direct := d.run (Writer.writeFile calls ⟨validate, false⟩ check target contents)
  let emptied := d.run (Writer.writeFile calls ⟨false, false⟩ check target [])
  (atomic.1.result = .ok () ↔ direct.1.result = .ok ()) ∧
    ((validate → checkCode contents = .ok ()) → contents.hasHalf = false →
      atomic.2.tree = direct.2.tree) ∧
    ((validate → checkCode contents = .ok ()) → contents.hasHalf →
      direct.1.result ≠ .ok () ∧ direct.2.tree = emptied.2.tree ∧
      d.tree.Grown target.parent.stations atomic.2.tree ∧
      (atomic.2.tree = direct.2.tree ↔
        emptied.1.result ≠ .ok () ∨ d.tree.node? target.location = some (.file []))) ∧
    (validate → checkCode contents ≠ .ok () →
      direct.2.tree = d.tree ∧ d.tree.Grown target.parent.stations atomic.2.tree)
  := by
  intro check atomic direct emptied
  have hsame := Disk.run_makeDirectories_eq hroom.unplanned hdepth
  have htree : atomic.2.tree = direct.2.tree ↔
      ∀ l, atomic.2.tree.node? l = direct.2.tree.node? l :=
    let after := fun atomic =>
      d.after (Writer.keeps_writeFile_isSorted calls ⟨validate, atomic⟩ contents target contents)
    SortedDisk.tree_eq_iff (after true) (after false)
  have hstopped : Writer.IsStopped ⟨validate, true⟩ check contents →
      atomic.1.result ≠ .ok () ∧ d.tree.Grown target.parent.stations atomic.2.tree := by
    intro hstopped
    exact ⟨(Writer.run_writeAtomic_of_isStopped target hstopped hroom.unplanned).1,
      Writer.grown_writeAtomic_of_isStopped target hstopped hroom.unplanned⟩
  by_cases haccepted : validate → checkCode contents = .ok ()
  · have hcheck := fun atomic => Writer.runCheck_of_accepted ⟨validate, atomic⟩ haccepted
    cases hbytes : Text.Utf8.encode? contents with
    | some bytes =>
        have hhalf : contents.hasHalf = false := by
          rw [← Bool.not_eq_true, ← Text.Utf8.encode?_eq_none_iff, hbytes]
          simp
        obtain ⟨hresult, hnodes⟩ := Writer.agree_of_accepted ⟨validate, true⟩ ⟨validate, false⟩
          hbytes (hcheck true) (hcheck false none) hroom hsame
        refine ⟨hresult, fun _ _ => htree.mpr hnodes, ?_, ?_⟩
        · intro _ h
          simp [hhalf] at h
        · intro hvalidate hrefused
          exact absurd (haccepted hvalidate) hrefused
    | none =>
        obtain ⟨hatomic, hgrown⟩ := hstopped (.inl hbytes)
        obtain ⟨hdirect, hdisk⟩ := Writer.run_writeDirect_of_unencodable (calls + 1) target check
          d.toDisk hbytes (hcheck false none)
        have hiff := Writer.agree_of_unencodable_iff ⟨validate, true⟩ ⟨validate, false⟩ check hbytes
          (hcheck false none) hroom.unplanned hsame
        refine ⟨iff_of_false hatomic hdirect, ?_, ?_, ?_⟩
        · intro _ h
          rw [← Bool.not_eq_true, ← Text.Utf8.encode?_eq_none_iff] at h
          exact absurd hbytes h
        · intro _ _
          exact ⟨hdirect, congrArg Disk.tree hdisk, hgrown, htree.trans hiff⟩
        · intro hvalidate hrefused
          exact absurd (haccepted hvalidate) hrefused
  · obtain ⟨hvalidate, hrefused⟩ := Classical.not_imp.mp haccepted
    obtain ⟨failure, hcheck⟩ := Writer.exists_runCheck_of_refused hrefused
    have hrun : direct = (⟨[], validate, .error failure⟩, d.toDisk) :=
      Writer.run_writeDirect_of_refused target contents d.toDisk
        (hcheck ⟨validate, false⟩ hvalidate none)
    obtain ⟨hatomic, hgrown⟩ := hstopped (.inr ⟨failure, hcheck ⟨validate, true⟩ hvalidate⟩)
    rw [hrun]
    refine ⟨iff_of_false hatomic (by simp), ?_, ?_, fun _ _ => ⟨rfl, hgrown⟩⟩
    · intro h
      exact absurd h haccepted
    · intro h
      exact absurd h haccepted

/-- A disk with a directory, and a tag that is taken before one that is free. -/
def stockedDisk : SortedDisk where
  tree := .directory [
    ("out", .directory [(".Main.elm.a.tmp", .file []), ("Main.elm", .file "old".toUTF8.toList)])]
  home := ⟨"/", []⟩
  tags := ["a", "b"]
  sorted := by
    apply Tree.IsSorted.directory (List.pairwise_singleton _ _)
    rw [List.forall_mem_singleton]
    apply Tree.IsSorted.directory (List.pairwise_pair.mpr (by decide))
    simp only [List.forall_mem_cons]
    exact ⟨.file _, .file _, by simp⟩

/-- A target whose path leads through a directory that is missing. -/
def detour : Path :=
  ⟨"/", ["out", "new", "..", "Main.elm"]⟩

/-- Code that the check accepts, with a half of a surrogate pair at its end. -/
def halvedCode : LooseText :=
  LooseText.ofString "module " ++ [.half 0]

/-- Accepted contents are written past the missing directory in both ways, refused ones in
neither. Accepted contents that cannot be written as bytes leave trees that differ. -/
theorem writing_modes_agree_detour :
  stockedDisk.HasRoom detour ∧ stockedDisk.Reaches 2 detour.parent ∧
    (let contents : LooseText := "module Main exposing (..)"
    let check := Writer.codeCheck contents
    let atomic := stockedDisk.run (Writer.writeFile 0 ⟨true, true⟩ check detour contents)
    let direct := stockedDisk.run (Writer.writeFile 0 ⟨true, false⟩ check detour contents)
    atomic.1.result = .ok () ∧ direct.1.result = .ok () ∧ atomic.2.tree = direct.2.tree) ∧
    (let contents : LooseText := "type Main"
    let check := Writer.codeCheck contents
    let atomic := stockedDisk.run (Writer.writeFile 0 ⟨true, true⟩ check detour contents)
    let direct := stockedDisk.run (Writer.writeFile 0 ⟨true, false⟩ check detour contents)
    direct.2.tree = stockedDisk.tree ∧
      stockedDisk.tree.Grown detour.parent.stations atomic.2.tree) ∧
    (let check := Writer.codeCheck halvedCode
    let atomic := stockedDisk.run (Writer.writeFile 0 ⟨true, true⟩ check detour halvedCode)
    let direct := stockedDisk.run (Writer.writeFile 0 ⟨true, false⟩ check detour halvedCode)
    stockedDisk.tree.Grown detour.parent.stations atomic.2.tree ∧
      atomic.2.tree ≠ direct.2.tree)
  := by
  have hroom : stockedDisk.HasRoom detour := by
    constructor
    · rfl
    · decide
    · decide
    · decide
  have hdepth : stockedDisk.Reaches 2 detour.parent := Disk.reaches_of_length (by decide)
  have hagree := fun contents =>
    writing_modes_agree 0 true detour contents stockedDisk hroom (.inl hdepth)
  obtain ⟨hresult, htree, -⟩ := hagree "module Main exposing (..)"
  obtain ⟨-, -, -, hkept⟩ := hagree "type Main"
  obtain ⟨-, -, hhalved, -⟩ := hagree halvedCode
  obtain ⟨-, -, hgrown, hiff⟩ := hhalved (fun _ => by decide) (by decide)
  have hdirect : (stockedDisk.run (Writer.writeFile 0 ⟨true, false⟩
      (Writer.codeCheck "module Main exposing (..)") detour
      "module Main exposing (..)")).1.result = .ok () := rfl
  refine ⟨hroom, hdepth, ⟨hresult.mpr hdirect, hdirect, htree (fun _ => by decide) (by decide)⟩,
    hkept rfl (by decide), hgrown, ?_⟩
  intro hsame
  rcases hiff.mp hsame with hfailed | hempty
  · exact hfailed rfl
  · exact absurd hempty (by decide +kernel)

/-- On the stocked disk, halved code passes the check. By way of a temporary file the old module
stays, in place it is emptied. With 992 calls under way, two missing directories can be made in
place but not otherwise. -/
theorem halved_code_empties_target :
  checkCode halvedCode = .ok () ∧
    (let target : Path := ⟨"/", ["out", "Main.elm"]⟩
    let check := Writer.codeCheck halvedCode
    let atomic := stockedDisk.run (Writer.writeFile 0 ⟨true, true⟩ check target halvedCode)
    let direct := stockedDisk.run (Writer.writeFile 0 ⟨true, false⟩ check target halvedCode)
    atomic.1.result = .error (.unencodable halvedCode) ∧
      atomic.2.read target = .ok "old".toUTF8.toList ∧
      direct.1.result = .error (.unencodable halvedCode) ∧ direct.2.read target = .ok []) ∧
    (let target : Path := ⟨"/", ["new", "deep", "Main.elm"]⟩
    let contents : LooseText := "module Main exposing (..)"
    let check := Writer.codeCheck contents
    let atomic := stockedDisk.run (Writer.writeFile 992 ⟨true, true⟩ check target contents)
    let direct := stockedDisk.run (Writer.writeFile 992 ⟨true, false⟩ check target contents)
    atomic.1.result = .error (.file .tooDeep) ∧ direct.1.result = .ok ())
  := ⟨by decide, ⟨rfl, rfl, rfl, rfl⟩, rfl, rfl⟩

end ElmSchema
