import ElmSchema.Proofs.Disk.Recording
import Mathlib.Data.List.Infix

/-!
# New directories

Making a directory with the directories it lies in changes nothing that was there. The tree
grows by directories on the way to the new one, and each error is that of a step on the way,
unless too many directories are missing.
-/

namespace ElmSchema

open FileSystem

/-! ### Directories on the way -/

/-- The locations that a path leads through, from the top to what it names. -/
def Path.stations (p : Path) : List (List LooseText) :=
  p.names.inits.map (Path.collapse [])

namespace Path

theorem location_mem_stations (p : Path) :
  p.location ∈ p.stations
  := by
  apply List.mem_map_of_mem
  rw [List.mem_inits]

theorem stations_parent_subset (p : Path) :
  p.parent.stations ⊆ p.stations
  := by
  intro l hl
  obtain ⟨init, hinit, rfl⟩ := List.mem_map.mp hl
  apply List.mem_map_of_mem
  rw [List.mem_inits] at hinit ⊢
  have hnames : p.parent.names = p.names.dropLast := by
    simp [names, parent, List.map_dropLast]
  apply hinit.trans
  rw [hnames]
  apply List.dropLast_prefix

end Path

/-- A tree has grown by directories at some of the places. -/
def Tree.Grown (places : List (List LooseText)) (t t' : Tree) : Prop :=
  ∀ l, t'.node? l = t.node? l ∨ (t.node? l = none ∧ t'.node? l = some .directory ∧ l ∈ places)

namespace Tree.Grown

variable {places : List (List LooseText)} {t t' t'' : Tree}

theorem refl (places : List (List LooseText)) (t : Tree) :
  Grown places t t
  := by
  intro l
  left
  rfl

theorem trans (h : Grown places t t') (h' : Grown places t' t'') :
  Grown places t t''
  := by
  intro l
  rcases h' l with heq' | ⟨hnone', hdirectory', hl⟩
  · rw [heq']
    apply h l
  · rcases h l with heq | ⟨-, hdirectory, -⟩
    · right
      use heq ▸ hnone', hdirectory', hl
    · simp [hnone'] at hdirectory

theorem mono {more : List (List LooseText)} (h : Grown places t t') (hsubset : places ⊆ more) :
  Grown more t t'
  := by
  intro l
  rcases h l with heq | ⟨hnone, hdirectory, hl⟩
  · left
    apply heq
  · right
    use hnone, hdirectory, hsubset hl

theorem node?_eq_some
    (h : Grown places t t') {l : List LooseText} {n : Node} (hn : t.node? l = some n) :
  t'.node? l = some n
  := by
  rcases h l with heq | ⟨hnone, -, -⟩
  · rw [heq, hn]
  · simp [hn] at hnone

/-- No file is new, and none has other contents. -/
theorem node?_eq_file_iff (h : Grown places t t') {l : List LooseText} {bytes : List UInt8} :
  t'.node? l = some (.file bytes) ↔ t.node? l = some (.file bytes)
  := by
  rcases h l with heq | ⟨hnone, hdirectory, -⟩
  · rw [heq]
  · simp [hnone, hdirectory]

end Tree.Grown

/-- Whether an operation only looks or makes a directory. -/
def Operation.isPreparation : Operation → Bool
  | .look _ => true
  | .makeDirectory _ => true
  | _ => false

/-- An error is that of a step that is no removal, or says that too many directories are
missing. -/
def Explains (steps : List Step) (e : FileError) : Prop :=
  e = .tooDeep ∨ ∃ step ∈ steps, step.error? = some e ∧ ∀ p, step.operation ≠ .remove p

theorem Explains.append
    {steps : List Step} {e : FileError} (h : Explains steps e) (new : List Step) :
  Explains (steps ++ new) e
  := by
  rcases h with rfl | ⟨step, hstep, herror⟩
  · left
    rfl
  · right
    use step, List.mem_append_left new hstep

theorem explains_concat
    {operation : Operation} (steps : List Step) (e : FileError)
    (hoperation : ∀ p, operation ≠ .remove p) :
  Explains (steps ++ [⟨operation, some e⟩]) e
  := by
  right
  use ⟨operation, some e⟩
  simp [hoperation]

/-- A recording goes on by looks and new directories at some of the places. -/
structure Prepared (places : List (List LooseText)) (r r' : Recording) : Prop where
  steps : ∃ new, r'.steps = r.steps ++ new ∧ ∀ step ∈ new, step.operation.isPreparation
  tree : r.disk.tree.Grown places r'.disk.tree

namespace Prepared

variable {places : List (List LooseText)} {r r' r'' : Recording}

theorem refl (places : List (List LooseText)) (r : Recording) :
  Prepared places r r
  := by
  constructor
  · use []
    simp
  · apply Tree.Grown.refl

theorem trans (h : Prepared places r r') (h' : Prepared places r' r'') :
  Prepared places r r''
  := by
  obtain ⟨⟨new, hsteps, hnew⟩, htree⟩ := h
  obtain ⟨⟨new', hsteps', hnew'⟩, htree'⟩ := h'
  constructor
  · use new ++ new'
    rw [hsteps', hsteps, List.append_assoc]
    use rfl
    intro step hstep
    rcases List.mem_append.mp hstep with hstep | hstep
    · apply hnew step hstep
    · apply hnew' step hstep
  · apply htree.trans htree'

theorem mono {more : List (List LooseText)} (h : Prepared places r r') (hsubset : places ⊆ more) :
  Prepared more r r'
  := ⟨h.steps, h.tree.mono hsubset⟩

theorem explains (h : Prepared places r r') {e : FileError} (he : Explains r.steps e) :
  Explains r'.steps e
  := by
  obtain ⟨new, hsteps, -⟩ := h.steps
  rw [hsteps]
  apply he.append

end Prepared

/-- A program prepares a disk for a file: it looks and makes directories at some of the
places, and each of its errors is explained by what has been done. -/
structure Prepares {α : Type} (places : List (List LooseText))
    (x : StateM Recording (Except FileError α)) (r : Recording) : Prop where
  prepared : Prepared places r (r.run x).2
  explained : ∀ e, (r.run x).1 = .error e → Explains (r.run x).2.steps e

namespace Prepares

variable {α β : Type} {places : List (List LooseText)} {r : Recording}

theorem ok (places : List (List LooseText)) (r : Recording) (a : α) :
  Prepares places (pure (.ok a)) r
  := by
  constructor
  · apply Prepared.refl
  · intro e h
    simp [Recording.run_pure] at h

theorem error {e : FileError} (places : List (List LooseText)) (h : Explains r.steps e) :
  Prepares places (pure (.error e) : StateM Recording (Except FileError α)) r
  := by
  constructor
  · apply Prepared.refl
  · intro e' h'
    obtain rfl : e = e' := by simpa [Recording.run_pure] using h'
    apply h

theorem bind
    {x : StateM Recording (Except FileError α)}
    {f : Except FileError α → StateM Recording (Except FileError β)}
    (hx : Prepared places r (r.run x).2) (hf : Prepares places (f (r.run x).1) (r.run x).2) :
  Prepares places (x >>= f) r
  := by
  constructor
  · apply hx.trans hf.prepared
  · apply hf.explained

/-- Looks prepare. -/
theorem leadsTo
    (places : List (List LooseText)) (test : EntryKind → Bool) (p : Path) (r : Recording) :
  Prepares places (leadsTo test p) r
  := by
  apply bind
  · constructor
    · rw [Recording.run_kindOf]
      use [Recording.stepOf (.look p) (r.disk.kindOf p)], rfl
      cases r.disk.kindOf p <;> simp [Recording.stepOf, Operation.isPreparation]
    · apply Tree.Grown.refl
  · rw [Recording.run_kindOf]
    cases hkind : r.disk.kindOf p with
    | ok kind => apply ok
    | error e =>
        have hexplains : Explains (r.steps ++ [⟨.look p, some e⟩]) e := by
          apply explains_concat
          simp
        cases e with
        | system e =>
            obtain ⟨fault, paths⟩ := e
            cases fault with
            | noEntry => apply ok
            | notDirectory => apply ok
            | _ => apply error places hexplains
        | badPath fault => apply ok
        | tooDeep => apply error places hexplains

theorem forgiveDirectory
    (places : List (List LooseText)) (p : Path) {e : SystemError} {r : Recording}
    (h : Explains r.steps (.system e)) :
  Prepares places (forgiveDirectory p e) r
  := by
  have hlook : Prepares places (isDirectory p) r := leadsTo places _ p r
  apply bind hlook.prepared
  cases hresult : (r.run (isDirectory p)).1 with
  | ok there =>
      cases there with
      | true => apply ok
      | false => apply error places (hlook.prepared.explains h)
  | error e' => apply error places (hlook.explained e' hresult)

/-- Making a directory prepares, at its place. -/
theorem makeDirectory (p : Path) (r : Recording) :
  Prepares p.stations (makeDirectory p) r
  := by
  rcases Recording.makeDirectory_cases p r with ⟨d, hrun, hmade⟩ | ⟨e, d, hrun, htree⟩
  · obtain ⟨-, hnone, hnodes⟩ := Tree.create_eq_ok rfl hmade
    constructor
    · rw [hrun]
      constructor
      · use [⟨.makeDirectory p, none⟩]
        simp [Operation.isPreparation]
      · intro l
        rw [hnodes]
        split
        · rename_i hl
          obtain rfl := hl
          right
          use hnone, rfl, p.location_mem_stations
        · left
          rfl
    · rw [hrun]
      simp
  · constructor
    · rw [hrun]
      constructor
      · use [⟨.makeDirectory p, some e⟩]
        simp [Operation.isPreparation]
      · intro l
        left
        rw [htree]
    · rw [hrun]
      rintro e' h
      obtain rfl : e = e' := by simpa using h
      apply explains_concat
      simp

theorem ensureDirectory (p : Path) (r : Recording) :
  Prepares p.stations (ensureDirectory p) r
  := by
  have hmake := makeDirectory p r
  apply bind hmake.prepared
  cases hresult : (r.run (FileSystem.makeDirectory p)).1 with
  | ok _ => apply ok
  | error e =>
      have hexplains := hmake.explained e hresult
      cases e with
      | system e =>
          obtain ⟨fault, paths⟩ := e
          cases fault with
          | noEntry => apply error _ hexplains
          | _ => apply forgiveDirectory _ _ hexplains
      | badPath fault => apply error _ hexplains
      | tooDeep => apply error _ hexplains

/-- Making a directory and the directories that it lies in prepares, on the way to it. -/
theorem makeDirectoriesWithin :
  ∀ (depth : Nat) (p : Path) (r : Recording),
    Prepares p.stations (makeDirectoriesWithin depth p) r
  | 0, p, r => error _ (.inl rfl)
  | depth + 1, p, r => by
      have hmake := makeDirectory p r
      apply bind hmake.prepared
      cases hresult : (r.run (FileSystem.makeDirectory p)).1 with
      | ok _ => apply ok
      | error e =>
          have hexplains := hmake.explained e hresult
          cases e with
          | system e =>
              obtain ⟨fault, paths⟩ := e
              cases fault with
              | noEntry =>
                  dsimp only
                  split
                  · apply error _ hexplains
                  · have ih := makeDirectoriesWithin depth p.parent
                      (r.run (FileSystem.makeDirectory p)).2
                    apply bind (ih.prepared.mono p.stations_parent_subset)
                    cases hparent : ((r.run (FileSystem.makeDirectory p)).2.run
                        (FileSystem.makeDirectoriesWithin depth p.parent)).1 with
                    | ok _ => apply ensureDirectory
                    | error e => apply error _ (ih.explained e hparent)
              | _ => apply forgiveDirectory _ _ hexplains
          | badPath fault => apply error _ hexplains
          | tooDeep => apply error _ hexplains

end Prepares

end ElmSchema
