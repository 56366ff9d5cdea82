import ElmSchema.Proofs.Disk.Success

/-!
# Too many directories

Only so many directories can be made at once, and their number shrinks with the calls that are
under way. As long as the missing directories are not too many, a greater number makes no
difference. If they are too many, then none is made. The parts of a path bound the directories
that can be missing on the way to it.
-/

namespace ElmSchema.Disk

open FileSystem

variable {d : Disk} {p : Path} {calls : Nat}

/-- The missing directories on the way to a path are not too many to be made, while a number of
calls are under way. -/
def Reaches (d : Disk) (calls : Nat) (p : Path) : Prop :=
  (d.run (makeDirectories calls p)).1 ≠ .error .tooDeep

/-! ### Operations on a disk are never too deep -/

theorem observe_ne_tooDeep {α : Type} (paths : List Path) (result : Except SystemFault α) :
  observe paths result ≠ .error .tooDeep
  := by
  unfold observe
  split
  · simp
  · cases result <;> simp

theorem settle_ne_tooDeep (d : Disk) (paths : List Path) (result : Except SystemFault Tree) :
  (d.settle paths result).1 ≠ .error .tooDeep
  := by
  have hobserve := observe_ne_tooDeep paths result
  unfold settle
  split
  · simp
  · rename_i e he
    rw [he] at hobserve
    simpa using hobserve

theorem run_makeDirectory_ne_tooDeep (d : Disk) (p : Path) :
  (d.run (makeDirectory p)).1 ≠ .error .tooDeep
  := by
  rw [run_makeDirectory, change]
  split <;> apply settle_ne_tooDeep

theorem run_forgiveDirectory_ne_tooDeep (d : Disk) (p : Path) (e : SystemError) :
  (d.run (forgiveDirectory p e)).1 ≠ .error .tooDeep
  := by
  have hkind : d.kindOf p ≠ .error .tooDeep := observe_ne_tooDeep _ _
  rw [forgiveDirectory, run_bind, isDirectory, run_leadsTo]
  cases hlook : d.kindOf p with
  | ok kind =>
      intro h
      cases kind <;> cases h
  | error e =>
      cases e with
      | system e =>
          obtain ⟨fault, paths⟩ := e
          cases fault <;> simp [testKind, run_pure]
      | badPath fault => simp [testKind, run_pure]
      | tooDeep => exact absurd hlook hkind

theorem run_ensureDirectory_ne_tooDeep (d : Disk) (p : Path) :
  (d.run (ensureDirectory p)).1 ≠ .error .tooDeep
  := by
  have hmake := d.run_makeDirectory_ne_tooDeep p
  rw [ensureDirectory, run_bind]
  obtain ⟨⟨made, d'⟩, hmade⟩ : ∃ run, d.run (makeDirectory p) = run := ⟨_, rfl⟩
  rw [hmade] at hmake ⊢
  cases made with
  | ok _ => simp [run_pure]
  | error e =>
      cases e with
      | system e =>
          obtain ⟨fault, paths⟩ := e
          cases fault with
          | noEntry => simp [run_pure]
          | _ => apply run_forgiveDirectory_ne_tooDeep
      | badPath fault => simp [run_pure]
      | tooDeep => exact absurd rfl hmake

/-! ### One step -/

/-- The run for a directory after the run for the directory that it lies in. -/
def afterParent (p : Path) : Except FileError Unit × Disk → Except FileError Unit × Disk
  | (.ok _, d) => d.run (ensureDirectory p)
  | (.error e, d) => (.error e, d)

/-- The first attempt to make a directory decides, or it fails because the directory that it lies
in is missing, and this is to be made first. -/
theorem run_makeDirectoriesWithin_cases (d : Disk) (p : Path) :
  (∃ run : Except FileError Unit × Disk, run.1 ≠ .error .tooDeep ∧
      ∀ depth, d.run (makeDirectoriesWithin (depth + 1) p) = run) ∨
    (p.parent ≠ p ∧ ∃ e d', d.run (makeDirectory p) = (.error e, d') ∧
      ∀ depth, d.run (makeDirectoriesWithin (depth + 1) p)
        = afterParent p (d'.run (makeDirectoriesWithin depth p.parent)))
  := by
  have hmake := d.run_makeDirectory_ne_tooDeep p
  obtain ⟨⟨made, d'⟩, hmade⟩ : ∃ run, d.run (makeDirectory p) = run := ⟨_, rfl⟩
  simp only [makeDirectoriesWithin, run_bind]
  rw [hmade] at hmake ⊢
  cases made with
  | ok _ =>
      left
      use (.ok (), d'), by simp, fun _ => rfl
  | error e =>
      cases e with
      | system e =>
          obtain ⟨fault, paths⟩ := e
          cases fault with
          | noEntry =>
              by_cases hparent : p.parent = p
              · left
                use (.error (.system ⟨.noEntry, paths⟩), d'), by simp
                intro depth
                simp [hparent, run_pure]
              · right
                use hparent, .system ⟨.noEntry, paths⟩, d', rfl
                intro depth
                dsimp only
                rw [if_neg hparent, run_bind]
                rcases d'.run (makeDirectoriesWithin depth p.parent) with ⟨_ | _, _⟩ <;> rfl
          | _ =>
              left
              exact ⟨_, d'.run_forgiveDirectory_ne_tooDeep p _, fun _ => rfl⟩
      | badPath fault =>
          left
          use (.error (.badPath fault), d'), by simp, fun _ => rfl
      | tooDeep => exact absurd rfl hmake

theorem afterParent_eq_tooDeep
    {run : Except FileError Unit × Disk} (h : (afterParent p run).1 = .error .tooDeep) :
  run.1 = .error .tooDeep ∧ (afterParent p run).2 = run.2
  := by
  obtain ⟨made, d⟩ := run
  cases made with
  | ok _ => exact absurd h (d.run_ensureDirectory_ne_tooDeep p)
  | error e => exact ⟨h, rfl⟩

/-! ### Numbers of directories -/

/-- Where the directories are not too many, one more may as well be made. -/
theorem run_makeDirectoriesWithin_succ :
  ∀ {depth : Nat} {p : Path} {d : Disk},
    (d.run (makeDirectoriesWithin depth p)).1 ≠ .error .tooDeep →
    d.run (makeDirectoriesWithin (depth + 1) p) = d.run (makeDirectoriesWithin depth p)
  | 0, _, _, h => absurd rfl h
  | depth + 1, p, d, h => by
      rcases d.run_makeDirectoriesWithin_cases p with ⟨run, -, hrun⟩ | ⟨-, e, d', -, hrun⟩
      · rw [hrun, hrun]
      · rw [hrun] at h
        rw [hrun, hrun, run_makeDirectoriesWithin_succ]
        intro hdeep
        apply h
        rcases hparent : d'.run (makeDirectoriesWithin depth p.parent) with ⟨made, d₁⟩
        rw [hparent] at hdeep
        obtain rfl : made = .error .tooDeep := hdeep
        rfl

/-- Where the directories are too many, none is made. -/
theorem run_makeDirectoriesWithin_of_tooDeep :
  ∀ {depth : Nat} {p : Path} {d : Disk}, d.plan = [] →
    (d.run (makeDirectoriesWithin depth p)).1 = .error .tooDeep →
    (d.run (makeDirectoriesWithin depth p)).2 = d
  | 0, _, _, _, _ => rfl
  | depth + 1, p, d, hplan, h => by
      rcases d.run_makeDirectoriesWithin_cases p with
        ⟨run, hne, hrun⟩ | ⟨-, e, d', hmade, hrun⟩
      · rw [hrun] at h
        exact absurd h hne
      · obtain rfl : d = d' := by
          rw [run_makeDirectory_of_plan hplan] at hmade
          rcases d.settle_cases [p] (d.tree.makeDirectory p) with ⟨d₁, hsettle, -⟩ | ⟨e', hsettle⟩
          · simp [hsettle] at hmade
          · exact (Prod.mk.inj (hsettle.symm.trans hmade)).2
        rw [hrun] at h ⊢
        obtain ⟨hdeep, hdisk⟩ := afterParent_eq_tooDeep h
        rw [hdisk]
        exact run_makeDirectoriesWithin_of_tooDeep hplan hdeep

/-- No more directories can be missing than the path has parts, the top among them. -/
theorem run_makeDirectoriesWithin_of_length :
  ∀ {depth : Nat} {p : Path} {d : Disk}, p.parts.length < depth →
    (d.run (makeDirectoriesWithin depth p)).1 ≠ .error .tooDeep
  | depth + 1, p, d, hlength => by
      rcases d.run_makeDirectoriesWithin_cases p with ⟨run, hne, hrun⟩ | ⟨hparent, e, d', -, hrun⟩
      · rw [hrun]
        exact hne
      · rw [hrun]
        intro hdeep
        have hpositive : p.parts ≠ [] := by
          intro hnil
          apply hparent
          rw [Path.parent, hnil, List.dropLast_nil, ← hnil]
        have hshorter : p.parent.parts.length < depth := by
          have := List.length_pos_of_ne_nil hpositive
          rw [Path.parent, List.length_dropLast]
          omega
        exact run_makeDirectoriesWithin_of_length hshorter (afterParent_eq_tooDeep hdeep).1

/-! ### Calls under way -/

/-- Where the directories are not too many, one call less makes no difference. -/
theorem Reaches.run_eq (h : d.Reaches (calls + 1) p) :
  d.run (makeDirectories calls p) = d.run (makeDirectories (calls + 1) p)
  := by
  have hpositive : maxNewDirectories (calls + 1) ≠ 0 := by
    intro hzero
    rw [Reaches, makeDirectories, hzero] at h
    exact h rfl
  have hsucc : maxNewDirectories calls = maxNewDirectories (calls + 1) + 1 := by
    unfold maxNewDirectories at hpositive ⊢
    omega
  rw [makeDirectories, hsucc]
  exact run_makeDirectoriesWithin_succ h

theorem not_reaches_succ (h : ¬ d.Reaches calls p) :
  ¬ d.Reaches (calls + 1) p
  := by
  intro hsucc
  apply h
  rw [Reaches, hsucc.run_eq]
  exact hsucc

/-- Where the directories are too many, none is made. -/
theorem run_makeDirectories_of_not_reaches (hplan : d.plan = []) (h : ¬ d.Reaches calls p) :
  d.run (makeDirectories calls p) = (.error .tooDeep, d)
  := by
  have hdeep : (d.run (makeDirectories calls p)).1 = .error .tooDeep := not_not.mp h
  exact Prod.ext hdeep (run_makeDirectoriesWithin_of_tooDeep hplan hdeep)

/-- One call less makes no difference, unless the directories are just one too many with it. -/
theorem run_makeDirectories_eq
    (hplan : d.plan = []) (h : d.Reaches (calls + 1) p ∨ ¬ d.Reaches calls p) :
  d.run (makeDirectories calls p) = d.run (makeDirectories (calls + 1) p)
  := by
  rcases h with h | h
  · exact h.run_eq
  · rw [run_makeDirectories_of_not_reaches hplan h,
      run_makeDirectories_of_not_reaches hplan (not_reaches_succ h)]

theorem reaches_of_length (h : p.parts.length < maxNewDirectories calls) :
  d.Reaches calls p
  := run_makeDirectoriesWithin_of_length h

end ElmSchema.Disk
