import ElmSchema.Proofs.Disk.Success
import Mathlib.Data.List.Sort

/-!
# Sorted trees

A tree is sorted if each of its directories has its entries in increasing order of their names. A
sorted tree is determined by its nodes. Each operation on a disk keeps its tree sorted, so a
disk with a sorted tree stays one in each run.
-/

namespace ElmSchema

namespace Tree

/-! ### Sorted trees -/

/-- The entries of a directory are in increasing order of their names. -/
def IsIncreasing (entries : List (LooseText × Tree)) : Prop :=
  entries.Pairwise fun x y => x.1 < y.1

/-- The entries of each directory of a tree are in increasing order of their names. -/
inductive IsSorted : Tree → Prop where
  | file (bytes : List UInt8) : IsSorted (.file bytes)
  | directory {entries : List (LooseText × Tree)} :
    IsIncreasing entries → (∀ x ∈ entries, IsSorted x.2) → IsSorted (.directory entries)

theorem isSorted_directory_iff {entries : List (LooseText × Tree)} :
  (Tree.directory entries).IsSorted ↔ IsIncreasing entries ∧ ∀ x ∈ entries, x.2.IsSorted
  := by
  constructor
  · rintro (_ | ⟨hincreasing, hentries⟩)
    use hincreasing, hentries
  · rintro ⟨hincreasing, hentries⟩
    exact .directory hincreasing hentries

theorem mem_of_child? {entries : List (LooseText × Tree)} {name : LooseText} {c : Tree}
    (h : (Tree.directory entries).child? name = some c) :
  (name, c) ∈ entries
  := by
  obtain ⟨⟨other, c'⟩, hfind, rfl⟩ := Option.map_eq_some_iff.mp h
  obtain rfl : other = name := by simpa using List.find?_some hfind
  exact List.mem_of_find?_eq_some hfind

/-- In increasing order, each entry is found under its name. -/
theorem child?_of_mem
    {entries : List (LooseText × Tree)} (hincreasing : IsIncreasing entries) {name : LooseText}
    {c : Tree} (h : (name, c) ∈ entries) :
  (Tree.directory entries).child? name = some c
  := by
  induction entries with
  | nil => simp at h
  | cons x rest ih =>
      obtain ⟨hfirst, hrest⟩ := List.pairwise_cons.mp hincreasing
      rcases List.mem_cons.mp h with rfl | h
      · simp [child?]
      · have hne : x.1 ≠ name := by
          intro heq
          have hlt := hfirst _ h
          rw [heq] at hlt
          exact List.lt_irrefl _ hlt
        have ih := ih hrest h
        simp only [child?] at ih ⊢
        rw [List.find?_cons_of_neg (by simpa using hne)]
        exact ih

theorem node?_cons_of_child?
    {entries : List (LooseText × Tree)} {name : LooseText} {c : Tree}
    (h : (Tree.directory entries).child? name = some c) (rest : List LooseText) :
  (Tree.directory entries).node? (name :: rest) = c.node? rest
  := by
  rw [node?, get?, h]
  rfl

/-- Where nodes agree, an entry has a counterpart of the same name. -/
theorem exists_child?
    {entries entries' : List (LooseText × Tree)}
    (hnodes : ∀ l, (Tree.directory entries).node? l = (Tree.directory entries').node? l)
    {name : LooseText} {c : Tree} (hc : (Tree.directory entries).child? name = some c) :
  ∃ c', (Tree.directory entries').child? name = some c' ∧ ∀ l, c.node? l = c'.node? l
  := by
  cases hc' : (Tree.directory entries').child? name with
  | none =>
      have := hnodes [name]
      rw [node?_cons_of_child? hc] at this
      simp [node?, get?, hc'] at this
  | some c' =>
      use c', rfl
      intro l
      rw [← node?_cons_of_child? hc, ← node?_cons_of_child? hc', hnodes]

/-- Sorted trees with the same nodes are equal. -/
theorem IsSorted.ext {t t' : Tree} (h : t.IsSorted) (h' : t'.IsSorted)
    (hnodes : ∀ l, t.node? l = t'.node? l) :
  t = t'
  := by
  induction h generalizing t' with
  | file bytes =>
      have htop := hnodes []
      cases h' with
      | file bytes' => simpa [node?, get?, node] using htop
      | directory _ _ => simp [node?, get?, node] at htop
  | @directory entries hincreasing hentries ih =>
      have htop := hnodes []
      cases h' with
      | file bytes' => simp [node?, get?, node] at htop
      | @directory entries' hincreasing' hentries' =>
          have : Std.Irrefl fun x y : LooseText × Tree => x.1 < y.1 :=
            ⟨fun x => List.lt_irrefl x.1⟩
          have : Std.Antisymm fun x y : LooseText × Tree => x.1 < y.1 :=
            ⟨fun x y hxy hyx => absurd hyx (List.lt_asymm hxy)⟩
          congr 1
          apply List.Pairwise.eq_of_mem_iff hincreasing hincreasing'
          rintro ⟨name, c⟩
          constructor
          · intro hc
            obtain ⟨c', hc', hsame⟩ := exists_child? hnodes (child?_of_mem hincreasing hc)
            have hmem := mem_of_child? hc'
            obtain rfl : c = c' := ih _ hc (hentries' _ hmem) hsame
            apply hmem
          · intro hc
            obtain ⟨c', hc', hsame⟩ :=
              exists_child? (fun l => (hnodes l).symm) (child?_of_mem hincreasing' hc)
            have hmem := mem_of_child? hc'
            obtain rfl : c' = c := ih _ hmem (hentries' _ hc) fun l => (hsame l).symm
            apply hmem

/-! ### Changes of sorted trees -/

theorem mem_insertEntry
    {name : LooseText} {e : Tree} {entries : List (LooseText × Tree)} {x : LooseText × Tree}
    (h : x ∈ insertEntry name e entries) :
  x = (name, e) ∨ x ∈ entries
  := by
  induction entries with
  | nil =>
      left
      simpa [insertEntry] using h
  | cons first rest ih =>
      rw [insertEntry] at h
      split at h
      · rcases List.mem_cons.mp h with rfl | h
        · left
          rfl
        · right
          exact List.mem_cons_of_mem _ h
      · split at h
        · rcases List.mem_cons.mp h with rfl | h
          · right
            exact List.mem_cons_self
          · rw [List.mem_cons]
            have := ih h
            tauto
        · exact List.mem_cons.mp h

theorem IsIncreasing.insertEntry
    {entries : List (LooseText × Tree)} (h : IsIncreasing entries) (name : LooseText) (e : Tree) :
  IsIncreasing (insertEntry name e entries)
  := by
  induction entries with
  | nil => apply List.pairwise_singleton
  | cons first rest ih =>
      obtain ⟨hfirst, hrest⟩ := List.pairwise_cons.mp h
      rw [Tree.insertEntry]
      split
      · rename_i hname
        apply List.Pairwise.cons _ hrest
        rwa [hname] at hfirst
      · rename_i hname
        split
        · rename_i hlt
          apply List.Pairwise.cons _ (ih hrest)
          intro x hx
          rcases mem_insertEntry hx with rfl | hx
          · apply hlt
          · apply hfirst x hx
        · rename_i hlt
          have hlt := LooseText.lt_of_not_lt hname hlt
          apply List.Pairwise.cons _ h
          intro x hx
          rcases List.mem_cons.mp hx with rfl | hx
          · apply hlt
          · exact List.lt_trans hlt (hfirst x hx)

namespace IsSorted

variable {t t' e : Tree} {p : Path}

theorem get? :
  ∀ {l : List LooseText} {t e : Tree}, t.IsSorted → t.get? l = some e → e.IsSorted
  | [], t, e, h, he => by
      obtain rfl : t = e := by simpa [Tree.get?] using he
      apply h
  | name :: rest, t, e, h, he => by
      obtain ⟨c, hc, hrest⟩ := Option.bind_eq_some_iff.mp he
      cases h with
      | file bytes => simp [child?] at hc
      | directory _ hentries => exact get? (hentries _ (mem_of_child? hc)) hrest

/-- What keeps the entries of one directory sorted keeps the tree sorted. -/
theorem changeAt
    {f : List (LooseText × Tree) → List (LooseText × Tree)}
    (hf : ∀ entries, (Tree.directory entries).IsSorted → (Tree.directory (f entries)).IsSorted) :
  ∀ {l : List LooseText} {t : Tree}, t.IsSorted → (changeAt f l t).IsSorted
  | [], .file bytes, h => h
  | _ :: _, .file bytes, h => h
  | [], .directory entries, h => hf entries h
  | name :: rest, .directory entries, h => by
      obtain ⟨hincreasing, hentries⟩ := isSorted_directory_iff.mp h
      rw [Tree.changeAt, isSorted_directory_iff]
      constructor
      · apply List.Pairwise.map _ _ hincreasing
        intro x y hlt
        split <;> split <;> exact hlt
      · intro x hx
        obtain ⟨y, hy, rfl⟩ := List.mem_map.mp hx
        split
        · exact changeAt hf (hentries y hy)
        · exact hentries y hy

theorem insert (h : t.IsSorted) (he : e.IsSorted) (s : Slot) :
  (t.insert s e).IsSorted
  := by
  apply changeAt _ h
  intro entries hentries
  obtain ⟨hincreasing, hentries⟩ := isSorted_directory_iff.mp hentries
  apply IsSorted.directory (hincreasing.insertEntry _ _)
  intro x hx
  rcases mem_insertEntry hx with rfl | hx
  · apply he
  · apply hentries x hx

theorem erase (h : t.IsSorted) (s : Slot) :
  (t.erase s).IsSorted
  := by
  apply changeAt _ h
  intro entries hentries
  obtain ⟨hincreasing, hentries⟩ := isSorted_directory_iff.mp hentries
  apply IsSorted.directory (hincreasing.filter _)
  intro x hx
  apply hentries x (List.mem_of_mem_filter hx)

theorem create (h : t.IsSorted) (he : e.IsSorted) (hcreate : t.create p e = .ok t') :
  t'.IsSorted
  := by
  cases hslot : t.slot .alreadyThere p with
  | error fault => simp [Tree.create, hslot, bind, Except.bind] at hcreate
  | ok s =>
      cases hentry : t.entry? s with
      | some old => simp [Tree.create, hslot, hentry, bind, Except.bind] at hcreate
      | none =>
          obtain rfl : t.insert s e = t' := by
            simpa [Tree.create, hslot, hentry, bind, Except.bind] using hcreate
          apply h.insert he

theorem writeFile
    {bytes : List UInt8} (h : t.IsSorted) (hwrite : t.writeFile p bytes = .ok t') :
  t'.IsSorted
  := by
  cases hslot : t.slot .isDirectory p with
  | error fault => simp [Tree.writeFile, hslot, bind, Except.bind] at hwrite
  | ok s =>
      simp only [Tree.writeFile, hslot, bind, Except.bind] at hwrite
      split at hwrite
      · simp at hwrite
      · obtain rfl : t.insert s (.file bytes) = t' := by simpa using hwrite
        apply h.insert (.file bytes)

theorem removeFile (h : t.IsSorted) (hremove : t.removeFile p = .ok t') :
  t'.IsSorted
  := by
  cases hslot : t.slot .isDirectory p with
  | error fault => simp [Tree.removeFile, hslot, bind, Except.bind] at hremove
  | ok s =>
      simp only [Tree.removeFile, hslot, bind, Except.bind] at hremove
      split at hremove
      · simp at hremove
      · simp at hremove
      · obtain rfl : t.erase s = t' := by simpa using hremove
        apply h.erase

theorem rename {source target : Path} (h : t.IsSorted) (hmove : t.rename source target = .ok t') :
  t'.IsSorted
  := by
  cases hsource : t.slot .busy source with
  | error fault => simp [Tree.rename, hsource, bind, Except.bind] at hmove
  | ok s =>
      cases htarget : t.slot .busy target with
      | error fault => simp [Tree.rename, hsource, htarget, bind, Except.bind] at hmove
      | ok r =>
          simp only [Tree.rename, hsource, htarget, bind, Except.bind] at hmove
          split at hmove
          · simp at hmove
          · rename_i e hentry
            split at hmove
            · obtain rfl : t = t' := by simpa using hmove
              apply h
            · split at hmove
              · simp at hmove
              · obtain rfl : (t.erase s).insert r e = t' := by simpa using hmove
                apply (h.erase s).insert (h.get? hentry)

end IsSorted

end Tree

namespace Disk

open FileSystem

/-! ### Operations keep trees sorted -/

theorem isSorted_change
    {d : Disk} {paths : List Path} {f : Tree → Except SystemFault Tree} (h : d.tree.IsSorted)
    (hf : ∀ t, f d.tree = .ok t → t.IsSorted) :
  (d.change paths f).2.tree.IsSorted
  := by
  rcases d.change_cases paths f with ⟨d', hchange, hchanged, -⟩ | ⟨e, d', hchange, htree⟩
  · rw [hchange]
    apply hf _ hchanged
  · rw [hchange, htree]
    apply h

/-- Each operation keeps a tree sorted, whether it fails or not. -/
theorem isKept_isSorted :
  IsKept fun d => d.tree.IsSorted
  where
  makeDirectory p d h := by
    dsimp only
    rw [run_makeDirectory]
    apply isSorted_change h
    intro t hmade
    apply h.create (.directory .nil (by simp)) hmade
  createTemporary directory before after d h := by
    dsimp only
    rw [run_createTemporary]
    rcases d.createTemporary_cases directory before after with
      ⟨p, d', hcreate, -, hcreated⟩ | ⟨e, d', hcreate, htree⟩
    · rw [hcreate]
      apply h.create (.file []) hcreated
    · rw [hcreate, htree]
      apply h
  write p bytes d h := by
    rw [run_write]
    rcases d.write_cases p bytes with ⟨d', hwrite, hwritten⟩ | ⟨e, d', hwrite, htree⟩
    · rw [hwrite]
      apply h.writeFile hwritten
    · rw [hwrite]
      rcases htree with htree | ⟨others, hwritten⟩
      · rw [htree]
        apply h
      · apply h.writeFile hwritten
  rename source target d h := by
    dsimp only
    rw [run_rename]
    apply isSorted_change h
    intro t hmoved
    apply h.rename hmoved
  remove p d h := by
    dsimp only
    rw [run_remove]
    apply isSorted_change h
    intro t hremoved
    apply h.removeFile hremoved

end Disk

/-! ### Sorted disks -/

/-- A disk on which each directory lists its entries in increasing order of their names. -/
structure SortedDisk extends Disk where
  sorted : tree.IsSorted

namespace SortedDisk

/-- The sorted disk that a program leaves, provided that it keeps trees sorted. -/
def after
    {α : Type} (d : SortedDisk) {x : StateM Disk α}
    (hx : Disk.Keeps (fun d => d.tree.IsSorted) x) : SortedDisk where
  toDisk := (d.run x).2
  sorted := hx d.toDisk d.sorted

/-- The tree of a sorted disk is determined by its nodes. -/
theorem tree_eq_iff (d d' : SortedDisk) :
  d.tree = d'.tree ↔ ∀ l, d.tree.node? l = d'.tree.node? l
  := by
  constructor
  · intro h l
    rw [h]
  · apply d.sorted.ext d'.sorted

end SortedDisk

end ElmSchema
