import ElmSchema.Proofs.Disk.Run
import ElmSchema.Proofs.Path

/-!
# Operations that succeed

When an operation on a disk succeeds, and what it gives then. What a path leads to is still found
in a tree that keeps all directories, and the search for a free name gives the same path there.
It is also found under the normal form of the path. As long as no failure is planned, an operation
does what the tree allows.
-/

namespace ElmSchema

namespace Tree

/-! ### Walks and finds -/

/-- A walk that can be taken can be stopped on the way. -/
theorem Place.exists_walk_of_append :
  ∀ (names more : List LooseText) {p q : Place}, p.walk (names ++ more) = .ok q →
    ∃ r, p.walk names = .ok r ∧ r.walk more = .ok q
  | [], more, p, q, h => ⟨p, rfl, h⟩
  | name :: rest, more, ⟨.file bytes, trail⟩, q, h => by simp [walk] at h
  | name :: rest, more, ⟨.directory entries, trail⟩, q, h => by
      simp only [walk, List.cons_append] at h ⊢
      split at h
      · rename_i hup
        rw [if_pos hup]
        apply exists_walk_of_append rest more h
      · rename_i hup
        rw [if_neg hup]
        split at h
        · simp at h
        · rename_i hsize
          rw [if_neg hsize]
          split at h
          · simp at h
          · apply exists_walk_of_append rest more h

/-- Only the creation of an entry finds that it is there already. -/
theorem Place.walk_ne_alreadyThere :
  ∀ (names : List LooseText) (p : Place), p.walk names ≠ .error .alreadyThere
  | [], p => by simp [walk]
  | name :: rest, ⟨.file bytes, trail⟩ => by simp [walk]
  | name :: rest, ⟨.directory entries, trail⟩ => by
      simp only [walk]
      split
      · apply walk_ne_alreadyThere
      · split
        · simp
        · split
          · simp
          · apply walk_ne_alreadyThere

theorem find_eq_ok_iff {t e : Tree} {p : Path} :
  t.find p = .ok e ↔
    isOversize p = false ∧ ∃ place, Place.walk ⟨t, []⟩ p.names = .ok place ∧ place.tree = e
  := by
  rw [find]
  cases isOversize p with
  | true => simp
  | false => cases Place.walk ⟨t, []⟩ p.names <;> simp [bind, Except.bind, pure, Except.pure]

/-- What a path leads to lies at its location. -/
theorem node?_of_find {t e : Tree} {p : Path} (h : t.find p = .ok e) :
  t.node? p.location = some e.node
  := by
  obtain ⟨-, place, hwalk, rfl⟩ := find_eq_ok_iff.mp h
  obtain ⟨hin, hlocation⟩ := Place.IsIn.top.of_walk hwalk
  have : p.location = place.location := hlocation.symm
  rw [this, hin.node?_location]

/-- In a tree that has all directories of another one, a path leads to what lies at its
location. -/
theorem find_mono
    {t t' e : Tree} {p : Path} {n : Node} (h : t.find p = .ok e)
    (hkept : ∀ l, t.node? l = some .directory → t'.node? l = some .directory)
    (hnode : t'.node? p.location = some n) :
  ∃ e', t'.find p = .ok e' ∧ e'.node = n
  := by
  obtain ⟨hsize, place, hwalk, rfl⟩ := find_eq_ok_iff.mp h
  obtain ⟨-, hlocation⟩ := Place.IsIn.top.of_walk hwalk
  have hplace : place.location = p.location := hlocation
  obtain ⟨place', hwalk', hplace'⟩ := Place.IsIn.top.walk_mono hkept .top rfl hwalk (by
    rw [hplace, hnode]
    rfl)
  obtain ⟨hin', -⟩ := Place.IsIn.top.of_walk hwalk'
  use place'.tree, find_eq_ok_iff.mpr ⟨hsize, place', hwalk', rfl⟩
  have heq := hin'.node?_location
  rw [hplace', hplace, hnode] at heq
  simpa using heq.symm

/-- The names on a walk are short, those of the directory above aside. -/
theorem Place.byteSize_of_walk :
  ∀ {names : List LooseText} {p q : Place}, p.walk names = .ok q →
    ∀ name ∈ names, name ≠ Path.up → name.byteSize ≤ maxNameSize
  | [], p, q, _, name, hname, _ => by simp at hname
  | first :: rest, ⟨.file bytes, trail⟩, q, h, name, hname, hup => by simp [walk] at h
  | first :: rest, ⟨.directory entries, trail⟩, q, h, name, hname, hup => by
      simp only [walk] at h
      split at h
      · rename_i hfirst
        rcases List.mem_cons.mp hname with rfl | hname
        · exact absurd (by simpa using hfirst) hup
        · exact byteSize_of_walk h name hname hup
      · split at h
        · simp at h
        · rename_i hsize
          split at h
          · simp at h
          · rcases List.mem_cons.mp hname with rfl | hname
            · exact Nat.not_lt.mp hsize
            · exact byteSize_of_walk h name hname hup

/-- Short names lead to what lies at their location. -/
theorem Place.IsIn.exists_walk {t : Tree} :
  ∀ {names : List LooseText} {p : Place}, p.IsIn t →
    (∀ name ∈ names, name ≠ Path.up ∧ name.byteSize ≤ maxNameSize) →
    (t.get? (p.location ++ names)).isSome →
    ∃ q, p.walk names = .ok q ∧ q.location = p.location ++ names
  | [], p, _, _, _ => ⟨p, rfl, by simp⟩
  | name :: rest, ⟨.file bytes, trail⟩, hp, _, hsome => by
      rw [get?_append, hp.get?_location] at hsome
      simp [get?, child?] at hsome
  | name :: rest, ⟨.directory entries, trail⟩, hp, hnames, hsome => by
      obtain ⟨⟨hup, hsize⟩, hrest⟩ := List.forall_mem_cons.mp hnames
      obtain ⟨c, hc⟩ : ∃ c, (Tree.directory entries).child? name = some c := by
        rw [get?_append, hp.get?_location] at hsome
        obtain ⟨e, he⟩ := Option.isSome_iff_exists.mp hsome
        obtain ⟨c, hc, -⟩ : ∃ c, (Tree.directory entries).child? name = some c ∧
            c.get? rest = some e := by simpa [get?, Option.bind_eq_some_iff] using he
        use c
      have hlocation : location ⟨c, (name, .directory entries) :: trail⟩ ++ rest
          = location ⟨.directory entries, trail⟩ ++ name :: rest := by
        rw [location_cons, List.append_assoc, List.singleton_append]
      obtain ⟨q, hwalk, hq⟩ := exists_walk (hp.entry hc) hrest (hlocation ▸ hsome)
      use q
      simp only [walk]
      rw [if_neg (by simpa using hup), if_neg (Nat.not_lt.mpr hsize), hc]
      use hwalk, hq.trans hlocation

/-- What a path leads to is found by the names of its location alone. -/
theorem exists_walk_location {t e : Tree} {p : Path} (h : t.find p = .ok e) :
  ∃ place, Place.walk ⟨t, []⟩ p.location = .ok place ∧ place.location = p.location ∧
    place.tree = e
  := by
  obtain ⟨-, found, hwalk, rfl⟩ := find_eq_ok_iff.mp h
  obtain ⟨hin, hlocation⟩ := Place.IsIn.top.of_walk hwalk
  have hfound : t.get? p.location = some found.tree := by
    have hlocation : found.location = p.location := hlocation
    rw [← hlocation, hin.get?_location]
  have hnames : ∀ name ∈ p.location, name ≠ Path.up ∧ name.byteSize ≤ maxNameSize := by
    intro name hname
    have hup : name ≠ Path.up := by
      rintro rfl
      exact Path.up_not_mem_collapse (by simp) hname
    rcases Path.mem_of_mem_collapse hname with hnil | hmem
    · simp at hnil
    · use hup, Place.byteSize_of_walk hwalk name hmem hup
  have hsome : (t.get? (Place.location ⟨t, []⟩ ++ p.location)).isSome := by
    rw [Place.location, List.map_nil, List.reverse_nil, List.nil_append, hfound]
    rfl
  obtain ⟨place, hwalk', hplace⟩ := Place.IsIn.top.exists_walk hnames hsome
  obtain ⟨hin', -⟩ := Place.IsIn.top.of_walk hwalk'
  have hplace : place.location = p.location := hplace
  use place, hwalk', hplace
  have hget := hin'.get?_location
  rw [hplace, hfound] at hget
  exact (Option.some.inj hget).symm

theorem exists_directory_of_node {e : Tree} (h : e.node = .directory) :
  ∃ entries, e = .directory entries
  := by
  cases e with
  | file bytes => simp [node] at h
  | directory entries => use entries

theorem eq_file_of_node {e : Tree} {bytes : List UInt8} (h : e.node = .file bytes) :
  e = .file bytes
  := by
  cases e with
  | file others => simpa [node] using h
  | directory entries => simp [node] at h

/-! ### Creation -/

/-- Nothing can be made where a path leads to something. -/
theorem create_of_find {t e : Tree} {p : Path} (h : t.find p = .ok e) (new : Tree) :
  t.create p new = .error .alreadyThere
  := by
  obtain ⟨hsize, place, hwalk, rfl⟩ := find_eq_ok_iff.mp h
  rw [create, slot, hsize, if_neg Bool.false_ne_true]
  split
  · rfl
  · rename_i name hlast
    rw [← List.dropLast_append_getLast? name hlast] at hwalk
    obtain ⟨⟨tree, trail⟩, hinit, hname⟩ := Place.exists_walk_of_append _ _ hwalk
    obtain ⟨hin, -⟩ := Place.IsIn.top.of_walk hinit
    simp only [hinit, bind, Except.bind]
    cases tree with
    | file bytes => simp [Place.walk] at hname
    | directory entries =>
        simp only [Place.walk] at hname
        by_cases hup : name = Path.up
        · simp [hup]
        · have hup' : (name == Path.up) = false := by simpa using hup
          rw [hup', if_neg Bool.false_ne_true] at hname
          split at hname
          · simp at hname
          · rename_i hlong
            split at hname
            · simp at hname
            · rename_i c hc
              have hentry :
                  t.entry? ⟨Place.location ⟨.directory entries, trail⟩, name⟩ = some c := by
                have hget := (hin.entry hc).get?_location
                rwa [Place.location_cons] at hget
              simp [hup, hlong, hentry]

/-- An entry with a name can be made if nothing is there. -/
theorem exists_create {t : Tree} {p : Path} {s : Slot} (h : t.Names p s)
    (hnone : t.node? p.location = none) (e : Tree) :
  ∃ t', t.create p e = .ok t'
  := by
  have hentry : t.entry? s = none := by
    rw [← h.location] at hnone
    exact Option.map_eq_none_iff.mp hnone
  use t.insert s e
  simp [create, slot_eq_ok_iff.mpr h, hentry, bind, Except.bind]

/-- Nothing can be made in a slot that is taken. -/
theorem create_of_names {t e : Tree} {p : Path} {s : Slot} (h : t.Names p s)
    (hsome : (t.node? p.location).isSome) :
  t.create p e = .error .alreadyThere
  := by
  obtain ⟨old, hentry⟩ : ∃ old, t.entry? s = some old := by
    rw [← h.location, node?, Option.isSome_map] at hsome
    exact Option.isSome_iff_exists.mp hsome
  simp [create, slot_eq_ok_iff.mpr h, hentry, bind, Except.bind]

/-- The creation of an entry with a name finds that it is there already just if something
lies in the slot that the path names. -/
theorem create_eq_alreadyThere_iff
    {t e : Tree} {p : Path} {part : LooseText} (hup : Path.settled part ≠ Path.up) :
  t.create (p.child part) e = .error .alreadyThere ↔
    (∃ s, t.Names (p.child part) s) ∧ (t.node? (p.child part).location).isSome
  := by
  constructor
  · intro h
    cases hslot : t.slot .alreadyThere (p.child part) with
    | ok s =>
        have hs := slot_eq_ok_iff.mp hslot
        use ⟨s, hs⟩
        cases hentry : t.entry? s with
        | none => simp [create, hslot, hentry, bind, Except.bind] at h
        | some old =>
            have hnode : t.node? s.location = some old.node := by
              rw [node?, Slot.location]
              exact congrArg (Option.map node) hentry
            rw [← hs.location, hnode]
            rfl
    | error fault =>
        obtain rfl : fault = .alreadyThere := by
          simpa [create, hslot, bind, Except.bind] using h
        -- The last part is a name, so the slot is refused for another reason.
        rw [slot] at hslot
        split at hslot
        · simp at hslot
        · rw [Path.names_child, List.getLast?_concat, List.dropLast_concat] at hslot
          cases hwalk : Place.walk ⟨t, []⟩ p.names with
          | error fault =>
              obtain rfl : fault = .alreadyThere := by
                simpa [hwalk, bind, Except.bind] using hslot
              exact absurd hwalk (Place.walk_ne_alreadyThere _ _)
          | ok place =>
              simp only [hwalk, bind, Except.bind] at hslot
              split at hslot
              · simp at hslot
              · rw [if_neg (by simpa using hup)] at hslot
                split at hslot <;> simp at hslot
  · rintro ⟨⟨s, hs⟩, hsome⟩
    apply create_of_names hs hsome

/-- A name that is no longer than another one in the same directory names a slot beside it. -/
theorem Names.sibling
    {t : Tree} {p : Path} {s : Slot} {name other : String}
    (h : t.Names (p.child (LooseText.ofString other)) s)
    (hup : LooseText.ofString name ≠ Path.up)
    (hsize : (LooseText.ofString name).byteSize ≤ (LooseText.ofString other).byteSize) :
  t.Names (p.child (LooseText.ofString name)) ⟨s.directory, LooseText.ofString name⟩
  := by
  obtain ⟨hover, ⟨init, hnames, place, hwalk, hplace⟩, hdirectory, -, hlong⟩ := h
  rw [Path.names_child, Path.settled_ofString] at hnames
  obtain ⟨rfl, hother⟩ := List.append_inj' hnames rfl
  have hother : LooseText.ofString other = s.name := by simpa using hother
  rw [← hother] at hlong
  refine ⟨Path.isOversize_child hsize hover, ?_, hdirectory, hup, Nat.le_trans hsize hlong⟩
  use p.names
  rw [Path.names_child, Path.settled_ofString]
  use rfl, place, hwalk, hplace

/-- The normal form of a path to a directory leads to the entries of the directory. -/
theorem names_of_normalize
    {t : Tree} {p : Path} {entries : List (LooseText × Tree)} {part : LooseText}
    (hfault : p.fault? = none) (hfind : t.find p = .ok (.directory entries))
    (hover : isOversize (p.normalize.child part) = false) (hup : Path.settled part ≠ Path.up)
    (hlong : (Path.settled part).byteSize ≤ maxNameSize) :
  t.Names (p.normalize.child part) ⟨p.location, Path.settled part⟩
  := by
  obtain ⟨place, hwalk, hplace, -⟩ := exists_walk_location hfind
  refine ⟨hover, ?_, node?_of_find hfind, hup, hlong⟩
  use p.location
  rw [Path.names_child, Path.names_normalize hfault]
  use rfl, place

/-! ### Changes of files -/

/-- A file can be written where no directory is. -/
theorem exists_writeFile
    {t : Tree} {p : Path} {s : Slot} (h : t.Names p s)
    (hdirectory : t.node? p.location ≠ some .directory) (bytes : List UInt8) :
  ∃ t', t.writeFile p bytes = .ok t'
  := by
  use t.insert s (.file bytes)
  have hslot : t.slot .isDirectory p = .ok s := slot_eq_ok_iff.mpr h
  cases hentry : t.entry? s with
  | none => simp [writeFile, hslot, hentry, bind, Except.bind]
  | some old =>
      cases old with
      | file others => simp [writeFile, hslot, hentry, bind, Except.bind]
      | directory entries =>
          apply absurd _ hdirectory
          rw [← h.location]
          exact Option.map_eq_some_iff.mpr ⟨_, hentry, rfl⟩

theorem exists_removeFile
    {t : Tree} {p : Path} {s : Slot} {old : List UInt8} (h : t.Names p s)
    (hfile : t.node? p.location = some (.file old)) :
  ∃ t', t.removeFile p = .ok t'
  := by
  use t.erase s
  simp [removeFile, slot_eq_ok_iff.mpr h, h.entry?_eq_file hfile, bind, Except.bind]

/-- A file cannot be moved to where a directory is. -/
theorem rename_eq_isDirectory
    {t : Tree} {source target : Path} {s r : Slot} {bytes : List UInt8} (hs : t.Names source s)
    (hr : t.Names target r) (hfile : t.node? source.location = some (.file bytes))
    (hdirectory : t.node? target.location = some .directory) :
  t.rename source target = .error .isDirectory
  := by
  have hsame : s ≠ r := by
    rintro rfl
    rw [← hs.location, hr.location, hdirectory] at hfile
    simp at hfile
  obtain ⟨entries, hentries⟩ := exists_get?_of_node? (hr.location ▸ hdirectory)
  have hentry : t.entry? r = some (.directory entries) := hentries
  simp [rename, slot_eq_ok_iff.mpr hs, slot_eq_ok_iff.mpr hr, hs.entry?_eq_file hfile, hentry,
    hsame, mayReplace, bind, Except.bind]

/-- A file can be moved to where no directory is. -/
theorem exists_rename
    {t : Tree} {source target : Path} {s r : Slot} {bytes : List UInt8} (hs : t.Names source s)
    (hr : t.Names target r) (hfile : t.node? source.location = some (.file bytes))
    (hdirectory : t.node? target.location ≠ some .directory) :
  ∃ t', t.rename source target = .ok t'
  := by
  have hreplace : mayReplace (.file bytes) (t.entry? r) = .ok () := by
    cases hentry : t.entry? r with
    | none => rfl
    | some old =>
        cases old with
        | file others => rfl
        | directory entries =>
            apply absurd _ hdirectory
            rw [← hr.location]
            exact Option.map_eq_some_iff.mpr ⟨_, hentry, rfl⟩
  by_cases hsame : s = r
  · obtain rfl := hsame
    use t
    simp [rename, slot_eq_ok_iff.mpr hs, slot_eq_ok_iff.mpr hr, hs.entry?_eq_file hfile, bind,
      Except.bind]
  · use (t.erase s).insert r (.file bytes)
    simp [rename, slot_eq_ok_iff.mpr hs, slot_eq_ok_iff.mpr hr, hs.entry?_eq_file hfile, hsame,
      hreplace, bind, Except.bind]

end Tree

namespace Disk

open FileSystem

/-! ### Looks -/

theorem observe_eq_system
    {α : Type} {p : Path} {result : Except SystemFault α} {fault : SystemFault}
    {paths : List Path} (h : observe [p] result = .error (.system ⟨fault, paths⟩)) :
  p.fault? = none ∧ result = .error fault
  := by
  unfold observe at h
  split at h
  · simp at h
  · rename_i hfault
    use by simpa using hfault
    cases result with
    | ok x => simp at h
    | error other =>
        obtain ⟨rfl, -⟩ : other = fault ∧ [p] = paths := by simpa using h
        rfl

theorem kindOf_eq_ok_iff {d : Disk} {p : Path} {kind : EntryKind} :
  d.kindOf p = .ok kind ↔ p.fault? = none ∧ ∃ e, d.tree.find p = .ok e ∧ e.kind = kind
  := by
  constructor
  · intro h
    obtain ⟨hfault, hlook⟩ := observe_eq_ok h
    use hfault _ List.mem_cons_self
    cases hfind : d.tree.find p with
    | error fault => simp [hfind, bind, Except.bind] at hlook
    | ok e =>
        use e, rfl
        simpa [hfind, bind, Except.bind, pure, Except.pure] using hlook
  · rintro ⟨hfault, e, hfind, rfl⟩
    rw [kindOf, hfind]
    apply observe_of_fault?_eq_none hfault

theorem exists_directory_of_kindOf {d : Disk} {p : Path} (h : d.kindOf p = .ok .directory) :
  p.fault? = none ∧ ∃ entries, d.tree.find p = .ok (.directory entries)
  := by
  obtain ⟨hfault, e, hfind, hkind⟩ := kindOf_eq_ok_iff.mp h
  use hfault
  cases e with
  | file bytes => simp [Tree.kind] at hkind
  | directory entries => use entries

/-- A directory stays a directory in a tree that has all directories. -/
theorem kindOf_directory_mono
    {d d' : Disk} {p : Path} (h : d.kindOf p = .ok .directory)
    (hkept : ∀ l, d.tree.node? l = some .directory → d'.tree.node? l = some .directory) :
  d'.kindOf p = .ok .directory
  := by
  obtain ⟨hfault, entries, hfind⟩ := exists_directory_of_kindOf h
  obtain ⟨e', hfind', he'⟩ := Tree.find_mono hfind hkept (hkept _ (Tree.node?_of_find hfind))
  obtain ⟨entries', rfl⟩ := Tree.exists_directory_of_node he'
  exact kindOf_eq_ok_iff.mpr ⟨hfault, _, hfind', rfl⟩

theorem exists_file_of_kindOf {d : Disk} {p : Path} (h : d.kindOf p = .ok .file) :
  p.fault? = none ∧ ∃ bytes, d.tree.find p = .ok (.file bytes)
  := by
  obtain ⟨hfault, e, hfind, hkind⟩ := kindOf_eq_ok_iff.mp h
  use hfault
  cases e with
  | file bytes => use bytes
  | directory entries => simp [Tree.kind] at hkind

/-! ### Changes without planned failures -/

theorem settle_of_ok
    {d : Disk} {paths : List Path} {t : Tree} (hfault : ∀ p ∈ paths, p.fault? = none) :
  d.settle paths (.ok t) = (.ok (), { d with tree := t })
  := by
  rw [settle, observe, List.findSome?_eq_none_iff.mpr hfault]

theorem settle_of_error
    {d : Disk} {paths : List Path} {fault : SystemFault}
    (hfault : ∀ p ∈ paths, p.fault? = none) :
  d.settle paths (.error fault) = (.error (.system ⟨fault, paths⟩), d)
  := by
  rw [settle, observe, List.findSome?_eq_none_iff.mpr hfault]

theorem change_of_plan
    {d : Disk} (hplan : d.plan = []) (paths : List Path) (f : Tree → Except SystemFault Tree) :
  d.change paths f = d.settle paths (f d.tree)
  := by
  simp [change, nextFailure, hplan]

theorem write_of_plan {d : Disk} (hplan : d.plan = []) (p : Path) (bytes : List UInt8) :
  d.write p bytes = d.settle [p] (d.tree.writeFile p bytes)
  := by
  simp [write, nextFailure, hplan]

theorem run_makeDirectory_of_plan {d : Disk} (hplan : d.plan = []) (p : Path) :
  d.run (makeDirectory p) = d.settle [p] (d.tree.makeDirectory p)
  := change_of_plan hplan [p] fun t => t.makeDirectory p

theorem run_rename_of_plan {d : Disk} (hplan : d.plan = []) (source target : Path) :
  d.run (rename source target) = d.settle [source, target] (d.tree.rename source target)
  := change_of_plan hplan [source, target] fun t => t.rename source target

theorem run_remove_of_plan {d : Disk} (hplan : d.plan = []) (p : Path) :
  d.run (remove p) = d.settle [p] (d.tree.removeFile p)
  := change_of_plan hplan [p] fun t => t.removeFile p

theorem createTemporary_of_plan
    {d : Disk} (hplan : d.plan = []) (directory : Path) (before after : LooseText) :
  d.createTemporary directory before after
    = d.createWith directory.normalize before after d.tags
  := by
  simp [createTemporary, nextFailure, hplan]

/-- A directory that is there need not be made. -/
theorem run_makeDirectories_of_directory
    {d : Disk} {p : Path} {calls : Nat} (hcalls : maxNewDirectories calls ≠ 0)
    (hplan : d.plan = []) (h : d.kindOf p = .ok .directory) :
  d.run (makeDirectories calls p) = (.ok (), d)
  := by
  obtain ⟨hfault, e, hfind, -⟩ := kindOf_eq_ok_iff.mp h
  have hmake : d.run (makeDirectory p) = (.error (.system ⟨.alreadyThere, [p]⟩), d) := by
    have hcreate : d.tree.makeDirectory p = .error .alreadyThere := Tree.create_of_find hfind _
    rw [run_makeDirectory_of_plan hplan, hcreate, settle_of_error (by simpa using hfault)]
  have hforgive : d.run (forgiveDirectory p ⟨.alreadyThere, [p]⟩) = (.ok (), d) := by
    rw [forgiveDirectory, run_bind, isDirectory, run_leadsTo, h]
    rfl
  obtain ⟨depth, hdepth⟩ := Nat.exists_eq_succ_of_ne_zero hcalls
  rw [makeDirectories, hdepth, makeDirectoriesWithin, run_bind, hmake]
  exact hforgive

/-! ### New names -/

/-- A new file has one of the names, and nothing was there. -/
theorem createWith_eq_ok {d : Disk} {directory : Path} {before after : LooseText} :
  ∀ {tags : List String} {p : Path} {d' : Disk},
    d.createWith directory before after tags = (.ok p, d') →
    ∃ tag ∈ tags, p = directory.child (before ++ LooseText.ofString tag ++ after) ∧
      p.fault? = none ∧ ∃ t, d.tree.createFile p = .ok t ∧ d' = { d with tree := t }
  | [], p, d', h => by simp [createWith] at h
  | tag :: tags, p, d', h => by
      simp only [createWith] at h
      split at h
      · rename_i t ht
        obtain ⟨hfault, hcreate⟩ := observe_eq_ok ht
        obtain ⟨rfl, rfl⟩ : directory.child (before ++ LooseText.ofString tag ++ after) = p ∧
            { d with tree := t } = d' := by simpa using h
        exact ⟨tag, List.mem_cons_self, rfl, hfault _ List.mem_cons_self, t, hcreate, rfl⟩
      · obtain ⟨tag', htag', hrest⟩ := createWith_eq_ok h
        exact ⟨tag', List.mem_cons_of_mem _ htag', hrest⟩
      · simp at h

/-- A new file is made if all the names can be those of files and one of them is free. -/
theorem exists_createWith {d : Disk} {directory : Path} {before after : LooseText} :
  ∀ {tags : List String},
    (∀ tag ∈ tags, (directory.child (before ++ LooseText.ofString tag ++ after)).fault? = none ∧
      ∃ s, d.tree.Names (directory.child (before ++ LooseText.ofString tag ++ after)) s) →
    (∃ tag ∈ tags, d.tree.node?
      (directory.child (before ++ LooseText.ofString tag ++ after)).location = none) →
    ∃ p, (d.createWith directory before after tags).1 = .ok p
  | [], _, hfree => by simp at hfree
  | tag :: tags, hnames, hfree => by
      obtain ⟨⟨hfault, s, hs⟩, hrest⟩ := List.forall_mem_cons.mp hnames
      obtain ⟨other, hother, hnone⟩ := hfree
      simp only [createWith]
      generalize hq : directory.child (before ++ LooseText.ofString tag ++ after) = q at *
      cases hnode : d.tree.node? q.location with
      | none =>
          obtain ⟨t, ht⟩ := Tree.exists_create hs hnode (.file [])
          use q
          rw [Tree.createFile, ht, observe_of_fault?_eq_none hfault]
      | some n =>
          have hcreate : d.tree.createFile q = .error .alreadyThere := by
            apply Tree.create_of_names hs
            rw [hnode]
            rfl
          have hobserve : observe [q] (d.tree.createFile q)
              = .error (.system ⟨.alreadyThere, [q]⟩) := by
            rw [hcreate, observe, List.findSome?_cons, hfault]
            rfl
          rw [hobserve]
          apply exists_createWith hrest
          rcases List.mem_cons.mp hother with rfl | hother
          · rw [hq, hnode] at hnone
            simp at hnone
          · use other, hother

/-- The search for a free name gives the same path on a disk that has all directories and the
same names taken. -/
theorem createWith_mono
    {d d' : Disk} {directory : Path} {before after : LooseText}
    (hkept : ∀ l, d.tree.node? l = some .directory → d'.tree.node? l = some .directory) :
  ∀ {tags : List String} {p : Path},
    (∀ tag ∈ tags, Path.settled (before ++ LooseText.ofString tag ++ after) ≠ Path.up ∧
      d'.tree.node? (directory.child (before ++ LooseText.ofString tag ++ after)).location
        = d.tree.node? (directory.child (before ++ LooseText.ofString tag ++ after)).location) →
    (d.createWith directory before after tags).1 = .ok p →
    (d'.createWith directory before after tags).1 = .ok p
  | [], p, _, h => by simp [createWith] at h
  | tag :: tags, p, hsame, h => by
      obtain ⟨⟨hup, hnode⟩, hrest⟩ := List.forall_mem_cons.mp hsame
      simp only [createWith] at h ⊢
      generalize hq : directory.child (before ++ LooseText.ofString tag ++ after) = q at *
      split at h
      · rename_i t ht
        obtain ⟨hfault, hcreate⟩ := observe_eq_ok ht
        obtain ⟨⟨s, hs⟩, hnone, -⟩ := Tree.create_eq_ok rfl hcreate
        obtain ⟨t', ht'⟩ := Tree.exists_create (hs.mono hkept) (hnode.trans hnone) (.file [])
        have hobserve : observe [q] (d'.tree.createFile q) = .ok t' := by
          rw [Tree.createFile, ht']
          apply observe_of_fault?_eq_none (hfault _ List.mem_cons_self)
        rw [hobserve]
        exact h
      · rename_i hthere
        obtain ⟨hfault, hcreate⟩ := observe_eq_system hthere
        have hcreate' : d'.tree.createFile q = .error .alreadyThere := by
          rw [← hq] at hcreate hnode ⊢
          obtain ⟨⟨s, hs⟩, hsome⟩ := (Tree.create_eq_alreadyThere_iff hup).mp hcreate
          exact (Tree.create_eq_alreadyThere_iff hup).mpr ⟨⟨s, hs.mono hkept⟩, hnode ▸ hsome⟩
        simp only [observe, hcreate', List.findSome?_cons, hfault, List.findSome?_nil]
        apply createWith_mono hkept hrest h
      · simp at h

end Disk

end ElmSchema
