import ElmSchema.Disk.Tree
import Mathlib.Data.Bool.Basic
import Mathlib.Data.List.Basic

/-!
# Trees as maps from locations to nodes

A tree is seen as a map that takes a location to its node: a file with its contents, a
directory, or nothing. A path names the location that remains when each `..` in it takes
away the name before it. A change of a tree through a path changes the node at the location
of the path, and no other node. A path that names a slot keeps naming it as long as no
directory is taken away.
-/

namespace ElmSchema

/-- What lies at a location: a file with its contents, or a directory. -/
inductive Node where
  | file (bytes : List UInt8)
  | directory
deriving DecidableEq, Repr

/-- The location that a path names. -/
def Path.location (p : Path) : List LooseText :=
  Path.collapse [] p.names

theorem Path.collapse_append (names more : List LooseText) (done : List LooseText) :
  collapse done (names ++ more) = collapse (collapse done names) more
  := by
  induction names generalizing done with
  | nil => rfl
  | cons name rest ih => rw [List.cons_append, collapse, collapse, ih]

namespace Tree

/-- The node at the top of a tree. -/
def node : Tree → Node
  | .file bytes => .file bytes
  | .directory _ => .directory

/-- The node at a location. -/
def node? (t : Tree) (l : List LooseText) : Option Node :=
  (t.get? l).map node

/-- Whether nothing lies below the top of a tree. -/
def isLeaf : Tree → Bool
  | .file _ => true
  | .directory entries => entries.isEmpty

/-- The location of a slot. -/
def Slot.location (s : Slot) : List LooseText :=
  s.directory ++ [s.name]

/-! ### Entries of directories -/

theorem get?_append (t : Tree) :
  ∀ (l k : List LooseText), t.get? (l ++ k) = (t.get? l).bind fun c => c.get? k
  | [], k => rfl
  | name :: rest, k => by
      simp only [List.cons_append, get?, Option.bind_assoc, get?_append _ rest k]

theorem get?_of_isLeaf {t : Tree} (h : t.isLeaf) (name : LooseText) (rest : List LooseText) :
  t.get? (name :: rest) = none
  := by
  cases t with
  | file bytes => rfl
  | directory entries =>
      obtain rfl := List.isEmpty_iff.mp h
      rfl

/-- The entry of a name is changed where entries of that name are, and no other entry is. -/
theorem child?_map (f : Tree → Tree) (name other : LooseText) (entries : List (LooseText × Tree)) :
  (Tree.directory (entries.map fun x => if x.1 == name then (x.1, f x.2) else x)).child? other
    = if other = name then ((Tree.directory entries).child? other).map f
      else (Tree.directory entries).child? other
  := by
  induction entries with
  | nil => simp [child?]
  | cons x rest ih =>
      simp only [child?, List.map_cons, List.find?_cons] at ih ⊢
      grind

theorem child?_insertEntry
    (e : Tree) (name other : LooseText) (entries : List (LooseText × Tree)) :
  (Tree.directory (insertEntry name e entries)).child? other
    = if other = name then some e else (Tree.directory entries).child? other
  := by
  induction entries with
  | nil =>
      simp only [child?, insertEntry, List.find?_cons, List.find?_nil]
      grind
  | cons x rest ih =>
      simp only [child?, insertEntry] at ih ⊢
      grind

theorem child?_eraseEntry (name other : LooseText) (entries : List (LooseText × Tree)) :
  (Tree.directory (eraseEntry name entries)).child? other
    = if other = name then none else (Tree.directory entries).child? other
  := by
  induction entries with
  | nil => simp [child?, eraseEntry]
  | cons x rest ih =>
      simp only [child?, eraseEntry, List.filter_cons] at ih ⊢
      grind

/-! ### Changes at a location -/

/-- Below a directory whose entries change lies what the changed directory holds. -/
theorem get?_changeAt_append (f : List (LooseText × Tree) → List (LooseText × Tree)) :
  ∀ {l : List LooseText} {t : Tree} {entries : List (LooseText × Tree)},
    t.get? l = some (.directory entries) → ∀ (rest : List LooseText),
    (changeAt f l t).get? (l ++ rest) = (Tree.directory (f entries)).get? rest
  | [], t, entries, h, rest => by
      obtain rfl : t = .directory entries := by simpa [get?] using h
      rfl
  | name :: l, .file bytes, entries, h, rest => by simp [get?, child?] at h
  | name :: l, .directory siblings, entries, h, rest => by
      obtain ⟨c, hc, hget⟩ : ∃ c, (Tree.directory siblings).child? name = some c ∧
          c.get? l = some (.directory entries) := by
        simpa [get?, Option.bind_eq_some_iff] using h
      have ih := get?_changeAt_append f hget rest
      rw [changeAt, List.cons_append, get?, child?_map, if_pos rfl, hc]
      exact ih

/-- Away from what lies below a directory whose entries change, each node stays. -/
theorem node?_changeAt (f : List (LooseText × Tree) → List (LooseText × Tree)) :
  ∀ {l : List LooseText} {t : Tree} {entries : List (LooseText × Tree)},
    t.get? l = some (.directory entries) → ∀ {k : List LooseText},
    (∀ name rest, k ≠ l ++ name :: rest) → (changeAt f l t).node? k = t.node? k
  | [], t, entries, h, [], _ => by
      obtain rfl : t = .directory entries := by simpa [get?] using h
      rfl
  | [], t, entries, h, other :: k, haway => by simpa using haway other k
  | name :: l, .file bytes, entries, h, k, _ => by simp [get?, child?] at h
  | name :: l, .directory siblings, entries, h, [], _ => rfl
  | name :: l, .directory siblings, entries, h, other :: k, haway => by
      rw [node?, node?, changeAt, get?, get?, child?_map]
      by_cases hother : other = name
      · obtain rfl := hother
        obtain ⟨c, hc, hget⟩ : ∃ c, (Tree.directory siblings).child? other = some c ∧
            c.get? l = some (.directory entries) := by
          simpa [get?, Option.bind_eq_some_iff] using h
        have haway' : ∀ name rest, k ≠ l ++ name :: rest := by
          intro name rest heq
          apply haway name rest
          rw [heq, List.cons_append]
        rw [if_pos rfl, hc]
        exact node?_changeAt f hget haway'
      · rw [if_neg hother]

theorem exists_get?_of_node? {t : Tree} {l : List LooseText} (h : t.node? l = some .directory) :
  ∃ entries, t.get? l = some (.directory entries)
  := by
  obtain ⟨e, hget, he⟩ := Option.map_eq_some_iff.mp h
  cases e with
  | file bytes => simp [node] at he
  | directory entries => use entries

/-- Nothing lies below what is no directory. -/
theorem get?_below
    {t : Tree} {l : List LooseText} (h : t.node? l ≠ some .directory) (name : LooseText)
    (rest : List LooseText) :
  t.get? (l ++ name :: rest) = none
  := by
  rw [get?_append]
  cases hget : t.get? l with
  | none => rfl
  | some e =>
      cases e with
      | file bytes => rfl
      | directory entries => simp [node?, hget, node] at h

/-- A change of the entries of a directory that puts `new` in a slot changes the node there,
and no other node. -/
theorem node?_changeAt_slot
    {t : Tree} {s : Slot} {f : List (LooseText × Tree) → List (LooseText × Tree)}
    {new : Option Tree} (hdirectory : t.node? s.directory = some .directory)
    (hf : ∀ entries other, (Tree.directory (f entries)).child? other
      = if other = s.name then new else (Tree.directory entries).child? other)
    (hnew : ∀ e, new = some e → e.isLeaf) (hold : t.node? s.location ≠ some .directory)
    (l : List LooseText) :
  (changeAt f s.directory t).node? l = if l = s.location then new.map node else t.node? l
  := by
  obtain ⟨entries, hentries⟩ := exists_get?_of_node? hdirectory
  by_cases hbelow : ∃ name rest, l = s.directory ++ name :: rest
  · obtain ⟨name, rest, rfl⟩ := hbelow
    rw [node?, get?_changeAt_append f hentries, get?, hf]
    by_cases hname : name = s.name
    · obtain rfl := hname
      cases rest with
      | nil => cases new <;> simp [Slot.location, get?]
      | cons next rest =>
          have hold' := get?_below hold next rest
          simp only [Slot.location, List.append_assoc, List.singleton_append] at hold'
          cases new with
          | none => simp [Slot.location, node?, hold']
          | some e => simp [Slot.location, node?, hold', get?_of_isLeaf (hnew e rfl)]
    · have hne : s.directory ++ name :: rest ≠ s.location := by
        intro heq
        simp [Slot.location] at heq
        apply hname heq.1
      rw [if_neg hname, if_neg hne, node?, get?_append, hentries]
      rfl
  · have haway : ∀ name rest, l ≠ s.directory ++ name :: rest := by
      intro name rest heq
      apply hbelow
      use name, rest
    have hne : l ≠ s.location := haway s.name []
    rw [node?_changeAt f hentries haway, if_neg hne]

theorem node?_insert
    {t e : Tree} {s : Slot} (hdirectory : t.node? s.directory = some .directory) (he : e.isLeaf)
    (hold : t.node? s.location ≠ some .directory) (l : List LooseText) :
  (t.insert s e).node? l = if l = s.location then some e.node else t.node? l
  := by
  apply node?_changeAt_slot hdirectory
    (fun entries other => child?_insertEntry e s.name other entries)
  · intro e' heq
    obtain rfl := Option.some.inj heq
    apply he
  · apply hold

theorem node?_erase
    {t : Tree} {s : Slot} (hdirectory : t.node? s.directory = some .directory)
    (hold : t.node? s.location ≠ some .directory) (l : List LooseText) :
  (t.erase s).node? l = if l = s.location then none else t.node? l
  := by
  apply node?_changeAt_slot hdirectory (fun entries other => child?_eraseEntry s.name other entries)
  · intro e heq
    simp at heq
  · apply hold

/-! ### Walks -/

/-- A place lies in a tree: its trail leads from the top of the tree to it. -/
inductive Place.IsIn (t : Tree) : Place → Prop where
  | top : IsIn t ⟨t, []⟩
  | entry {d c : Tree} {trail : List (LooseText × Tree)} {name : LooseText} :
    IsIn t ⟨d, trail⟩ → d.child? name = some c → IsIn t ⟨c, (name, d) :: trail⟩

namespace Place

theorem location_cons (t d : Tree) (name : LooseText) (trail : List (LooseText × Tree)) :
  location ⟨t, (name, d) :: trail⟩ = location ⟨d, trail⟩ ++ [name]
  := by
  simp [location]

theorem location_up (p : Place) :
  p.up.location = p.location.dropLast
  := by
  obtain ⟨t, trail⟩ := p
  cases trail with
  | nil => rfl
  | cons x rest => simp [up, location]

theorem IsIn.up {t : Tree} {p : Place} (h : p.IsIn t) :
  p.up.IsIn t
  := by
  cases h with
  | top => apply IsIn.top
  | entry h _ => apply h

/-- The part of a tree at the location of a place in it is the part at the place. -/
theorem IsIn.get?_location {t : Tree} {p : Place} (h : p.IsIn t) :
  t.get? p.location = some p.tree
  := by
  induction h with
  | top => rfl
  | entry _ hc ih =>
      rw [location_cons, get?_append, ih]
      simp [get?, hc]

theorem IsIn.node?_location {t : Tree} {p : Place} (h : p.IsIn t) :
  t.node? p.location = some p.tree.node
  := by
  rw [node?, h.get?_location, Option.map_some]

theorem IsIn.exists_of_node?
    {t : Tree} {p : Place} (h : p.IsIn t) (hnode : t.node? p.location = some .directory) :
  ∃ entries, p.tree = .directory entries
  := by
  rw [h.node?_location] at hnode
  cases htree : p.tree with
  | file bytes => simp [htree, node] at hnode
  | directory entries => use entries

theorem IsIn.exists_child?
    {t : Tree} {p : Place} (h : p.IsIn t) {name : LooseText}
    (hnode : (t.node? (p.location ++ [name])).isSome) :
  ∃ c, p.tree.child? name = some c
  := by
  rw [node?, get?_append, h.get?_location, Option.isSome_map] at hnode
  obtain ⟨c, hc⟩ := Option.isSome_iff_exists.mp hnode
  use c
  simpa [get?] using hc

/-- A walk from a place in a tree ends at a place in the tree, at the location that the names
lead to. -/
theorem IsIn.of_walk {t : Tree} :
  ∀ {names : List LooseText} {p q : Place}, p.IsIn t → p.walk names = .ok q →
    q.IsIn t ∧ q.location = Path.collapse p.location names
  | [], p, q, hp, h => by
      obtain rfl : p = q := by simpa [walk] using h
      exact ⟨hp, rfl⟩
  | name :: rest, ⟨.file bytes, trail⟩, q, hp, h => by simp [walk] at h
  | name :: rest, ⟨.directory entries, trail⟩, q, hp, h => by
      simp only [walk] at h
      rw [Path.collapse]
      split at h
      · rename_i hup
        rw [if_pos hup, ← location_up]
        apply IsIn.of_walk hp.up h
      · rename_i hup
        rw [if_neg hup]
        split at h
        · simp at h
        · split at h
          · simp at h
          · rename_i c hc
            have := IsIn.of_walk (hp.entry hc) h
            rwa [location_cons] at this

theorem walk_of_file {bytes : List UInt8} {trail : List (LooseText × Tree)} :
  ∀ {names : List LooseText} {q : Place}, walk ⟨.file bytes, trail⟩ names = .ok q →
    names = [] ∧ q = ⟨.file bytes, trail⟩
  | [], q, h => by
      simp [walk] at h
      exact ⟨rfl, h.symm⟩
  | name :: rest, q, h => by simp [walk] at h

/-- A walk leads to the same location in a tree that has all directories of the first tree
and something at the end of the walk. -/
theorem IsIn.walk_mono
    {t t' : Tree} (hkept : ∀ l, t.node? l = some .directory → t'.node? l = some .directory) :
  ∀ {names : List LooseText} {p p' q : Place}, p.IsIn t → p'.IsIn t' →
    p'.location = p.location → p.walk names = .ok q → (t'.node? q.location).isSome →
    ∃ q', p'.walk names = .ok q' ∧ q'.location = q.location
  | [], p, p', q, hp, hp', hloc, h, _ => by
      obtain rfl : p = q := by simpa [walk] using h
      use p', rfl
  | name :: rest, ⟨.file bytes, trail⟩, p', q, hp, hp', hloc, h, _ => by simp [walk] at h
  | name :: rest, ⟨.directory entries, trail⟩, p', q, hp, hp', hloc, h, hend => by
      obtain ⟨tree', trail'⟩ := p'
      obtain ⟨entries', rfl⟩ : ∃ entries', tree' = .directory entries' := by
        apply hp'.exists_of_node?
        apply hkept
        rw [hloc, hp.node?_location]
        rfl
      simp only [walk] at h ⊢
      split at h
      · rename_i hup
        rw [if_pos hup]
        apply IsIn.walk_mono hkept hp.up hp'.up _ h hend
        rw [location_up, location_up, hloc]
      · rename_i hup
        rw [if_neg hup]
        split at h
        · simp at h
        · rename_i hsize
          rw [if_neg hsize]
          split at h
          · simp at h
          · rename_i c hc
            have hnext : (t'.node? (location ⟨.directory entries, trail⟩ ++ [name])).isSome := by
              cases c with
              | directory below =>
                  rw [hkept]
                  · rfl
                  · rw [← location_cons (.directory below), (hp.entry hc).node?_location]
                    rfl
              | file bytes =>
                  obtain ⟨rfl, rfl⟩ := walk_of_file h
                  rwa [location_cons] at hend
            obtain ⟨c', hc'⟩ := hp'.exists_child? (hloc ▸ hnext)
            rw [hc']
            apply IsIn.walk_mono hkept (hp.entry hc) (hp'.entry hc') _ h hend
            rw [location_cons, location_cons, hloc]

/-- Names are walked one after the other. -/
theorem walk_append :
  ∀ (names more : List LooseText) {p q : Place}, p.walk names = .ok q →
    p.walk (names ++ more) = q.walk more
  | [], more, p, q, h => by
      obtain rfl : p = q := by simpa [walk] using h
      rfl
  | name :: rest, more, ⟨.file bytes, trail⟩, q, h => by simp [walk] at h
  | name :: rest, more, ⟨.directory entries, trail⟩, q, h => by
      simp only [walk, List.cons_append] at h ⊢
      split at h
      · rename_i hup
        rw [if_pos hup]
        apply walk_append rest more h
      · rename_i hup
        rw [if_neg hup]
        split at h
        · simp at h
        · rename_i hsize
          rw [if_neg hsize]
          split at h
          · simp at h
          · apply walk_append rest more h

end Place

/-! ### Slots -/

/-- A path names a slot of a tree: its last part is a name, and what it names lies in the
directory that the other parts lead to. -/
structure Names (t : Tree) (p : Path) (s : Slot) : Prop where
  notOversize : isOversize p = false
  names : ∃ init, p.names = init ++ [s.name] ∧
    ∃ place, Place.walk ⟨t, []⟩ init = .ok place ∧ place.location = s.directory
  directory : t.node? s.directory = some .directory
  notUp : s.name ≠ Path.up
  notLong : s.name.byteSize ≤ maxNameSize

theorem slot_eq_ok_iff {t : Tree} {unnamed : SystemFault} {p : Path} {s : Slot} :
  t.slot unnamed p = .ok s ↔ t.Names p s
  := by
  constructor
  · intro h
    rw [slot] at h
    split at h
    · simp at h
    · rename_i hsize
      split at h
      · simp at h
      · rename_i name hlast
        cases hwalk : Place.walk ⟨t, []⟩ p.names.dropLast with
        | error fault => simp [hwalk, bind, Except.bind] at h
        | ok place =>
            simp only [hwalk, bind, Except.bind] at h
            split at h
            · simp at h
            · rename_i entries htree
              split at h
              · simp at h
              · rename_i hup
                split at h
                · simp at h
                · rename_i hlong
                  obtain rfl : (⟨place.location, name⟩ : Slot) = s := by simpa using h
                  obtain ⟨hin, -⟩ := Place.IsIn.top.of_walk hwalk
                  exact {
                    notOversize := by simpa using hsize
                    names := by
                      use p.names.dropLast, (List.dropLast_append_getLast? name hlast).symm, place
                    directory := by rw [hin.node?_location, htree]; rfl
                    notUp := by simpa using hup
                    notLong := by simpa using hlong }
  · intro h
    obtain ⟨hsize, ⟨init, hnames, place, hwalk, hplace⟩, hdirectory, hup, hlong⟩ := h
    obtain ⟨hin, -⟩ := Place.IsIn.top.of_walk hwalk
    obtain ⟨entries, htree⟩ := hin.exists_of_node? (hplace ▸ hdirectory)
    simp [slot, hsize, hnames, hwalk, htree, bind, Except.bind, hup, hlong, hplace]

/-- The location of a slot is that of each path that names it. -/
theorem Names.location {t : Tree} {p : Path} {s : Slot} (h : t.Names p s) :
  s.location = p.location
  := by
  obtain ⟨-, ⟨init, hnames, place, hwalk, hplace⟩, -, hup, -⟩ := h
  obtain ⟨-, hlocation⟩ := Place.IsIn.top.of_walk hwalk
  rw [Path.location, hnames, Path.collapse_append, Slot.location, ← hplace, hlocation,
    Path.collapse, Path.collapse, if_neg (by simpa using hup)]
  rfl

theorem Names.entry?_eq_file
    {t : Tree} {p : Path} {s : Slot} {bytes : List UInt8} (h : t.Names p s)
    (hnode : t.node? p.location = some (.file bytes)) :
  t.entry? s = some (.file bytes)
  := by
  rw [← h.location] at hnode
  obtain ⟨e, he, hnode⟩ := Option.map_eq_some_iff.mp hnode
  cases e with
  | file others =>
      obtain rfl : others = bytes := by simpa [node] using hnode
      apply he
  | directory entries => simp [node] at hnode

/-- A path keeps naming a slot in a tree that has all directories of the first tree. -/
theorem Names.mono
    {t t' : Tree} {p : Path} {s : Slot} (h : t.Names p s)
    (hkept : ∀ l, t.node? l = some .directory → t'.node? l = some .directory) :
  t'.Names p s
  := by
  obtain ⟨hsize, ⟨init, hnames, place, hwalk, hplace⟩, hdirectory, hup, hlong⟩ := h
  obtain ⟨place', hwalk', hplace'⟩ := Place.IsIn.top.walk_mono hkept .top rfl hwalk (by
    rw [hplace, hkept _ hdirectory]
    rfl)
  refine ⟨hsize, ?_, hkept _ hdirectory, hup, hlong⟩
  use init, hnames, place', hwalk', hplace'.trans hplace

/-- A path leads to what lies in the slot that it names. -/
theorem Names.find_eq_ok
    {t e : Tree} {p : Path} {s : Slot} (h : t.Names p s) (he : t.entry? s = some e) :
  t.find p = .ok e
  := by
  obtain ⟨hsize, ⟨init, hnames, place, hwalk, hplace⟩, hdirectory, hup, hlong⟩ := h
  obtain ⟨hin, -⟩ := Place.IsIn.top.of_walk hwalk
  obtain ⟨entries, htree⟩ := hin.exists_of_node? (hplace ▸ hdirectory)
  have hchild : (Tree.directory entries).child? s.name = some e := by
    unfold entry? at he
    rw [get?_append, ← hplace, hin.get?_location, htree] at he
    simpa [get?] using he
  simp [find, hsize, hnames, Place.walk_append _ _ hwalk, Place.walk, htree, hup,
    Nat.not_lt.mpr hlong, hchild]

/-- A path that names a slot leads to the file that lies at its location. -/
theorem Names.find_eq_file
    {t : Tree} {p : Path} {s : Slot} {bytes : List UInt8} (h : t.Names p s)
    (hnode : t.node? p.location = some (.file bytes)) :
  t.find p = .ok (.file bytes)
  := h.find_eq_ok (h.entry?_eq_file hnode)

/-! ### Changes through paths -/

/-- A new leaf is made where nothing was, and no other node changes. -/
theorem create_eq_ok
    {t t' e : Tree} {p : Path} (he : e.isLeaf) (h : t.create p e = .ok t') :
  (∃ s, t.Names p s) ∧ t.node? p.location = none ∧
    ∀ l, t'.node? l = if l = p.location then some e.node else t.node? l
  := by
  cases hslot : t.slot .alreadyThere p with
  | error fault => simp [create, hslot, bind, Except.bind] at h
  | ok s =>
      have hs := slot_eq_ok_iff.mp hslot
      cases hentry : t.entry? s with
      | some old => simp [create, hslot, hentry, bind, Except.bind] at h
      | none =>
          obtain rfl : t.insert s e = t' := by
            simpa [create, hslot, hentry, bind, Except.bind] using h
          have hnone : t.node? s.location = none := Option.map_eq_none_iff.mpr hentry
          rw [← hs.location]
          refine ⟨⟨s, hs⟩, hnone, ?_⟩
          apply node?_insert hs.directory he
          simp [hnone]

/-- A file is written where no directory is, and no other node changes. -/
theorem writeFile_eq_ok
    {t t' : Tree} {p : Path} {bytes : List UInt8} (h : t.writeFile p bytes = .ok t') :
  t.node? p.location ≠ some .directory ∧
    ∀ l, t'.node? l = if l = p.location then some (.file bytes) else t.node? l
  := by
  cases hslot : t.slot .isDirectory p with
  | error fault => simp [writeFile, hslot, bind, Except.bind] at h
  | ok s =>
      have hs := slot_eq_ok_iff.mp hslot
      have hold : t.node? s.location ≠ some .directory ∧ t.insert s (.file bytes) = t' := by
        have hnode : t.node? s.location = (t.entry? s).map node := rfl
        cases hentry : t.entry? s with
        | none => simpa [writeFile, hslot, hentry, hnode, bind, Except.bind] using h
        | some old =>
            cases old with
            | file bytes => simpa [writeFile, hslot, hentry, hnode, node, bind, Except.bind] using h
            | directory entries => simp [writeFile, hslot, hentry, bind, Except.bind] at h
      obtain ⟨hold, rfl⟩ := hold
      rw [← hs.location]
      use hold
      apply node?_insert hs.directory rfl hold

theorem exists_names_of_writeFile
    {t t' : Tree} {p : Path} {bytes : List UInt8} (h : t.writeFile p bytes = .ok t') :
  ∃ s, t.Names p s
  := by
  cases hslot : t.slot .isDirectory p with
  | error fault => simp [writeFile, hslot, bind, Except.bind] at h
  | ok s => exact ⟨s, slot_eq_ok_iff.mp hslot⟩

/-- A file is removed, and no other node changes. -/
theorem removeFile_eq_ok {t t' : Tree} {p : Path} (h : t.removeFile p = .ok t') :
  (∃ bytes, t.node? p.location = some (.file bytes)) ∧
    ∀ l, t'.node? l = if l = p.location then none else t.node? l
  := by
  cases hslot : t.slot .isDirectory p with
  | error fault => simp [removeFile, hslot, bind, Except.bind] at h
  | ok s =>
      have hs := slot_eq_ok_iff.mp hslot
      cases hentry : t.entry? s with
      | none => simp [removeFile, hslot, hentry, bind, Except.bind] at h
      | some old =>
          cases old with
          | directory entries => simp [removeFile, hslot, hentry, bind, Except.bind] at h
          | file bytes =>
              obtain rfl : t.erase s = t' := by
                simpa [removeFile, hslot, hentry, bind, Except.bind] using h
              have hfile : t.node? s.location = some (.file bytes) :=
                Option.map_eq_some_iff.mpr ⟨_, hentry, rfl⟩
              rw [← hs.location]
              constructor
              · use bytes
              · apply node?_erase hs.directory
                simp [hfile]

/-- A file may take the place of nothing or of a file. -/
theorem ne_directory_of_mayReplace
    {bytes : List UInt8} {old : Option Tree} (h : mayReplace (.file bytes) old = .ok ()) :
  old.map node ≠ some .directory
  := by
  cases old with
  | none => simp
  | some e =>
      cases e with
      | file bytes => simp [node]
      | directory entries => simp [mayReplace] at h

theorem node?_insert_erase
    {t : Tree} {s r : Slot} {bytes : List UInt8} (hs : t.node? s.directory = some .directory)
    (hr : t.node? r.directory = some .directory) (hfile : t.node? s.location = some (.file bytes))
    (hold : t.node? r.location ≠ some .directory) (l : List LooseText) :
  ((t.erase s).insert r (.file bytes)).node? l
    = if l = r.location then some (.file bytes) else if l = s.location then none else t.node? l
  := by
  have herase : ∀ k, (t.erase s).node? k = if k = s.location then none else t.node? k := by
    apply node?_erase hs
    simp [hfile]
  have hdirectory : (t.erase s).node? r.directory = some .directory := by
    rw [herase, if_neg, hr]
    intro heq
    simp [← heq, hr] at hfile
  have hold' : (t.erase s).node? r.location ≠ some .directory := by
    rw [herase]
    split
    · simp
    · apply hold
  rw [node?_insert hdirectory rfl hold', herase]
  rfl

/-- A file moves to where no directory is, and no other node changes. -/
theorem rename_eq_ok
    {t t' : Tree} {source target : Path} {bytes : List UInt8}
    (hfile : t.node? source.location = some (.file bytes)) (h : t.rename source target = .ok t') :
  (∃ s, t.Names target s) ∧ t.node? target.location ≠ some .directory ∧
    ∀ l, t'.node? l = if l = target.location then some (.file bytes)
      else if l = source.location then none else t.node? l
  := by
  cases hsource : t.slot .busy source with
  | error fault => simp [rename, hsource, bind, Except.bind] at h
  | ok s =>
      cases htarget : t.slot .busy target with
      | error fault => simp [rename, hsource, htarget, bind, Except.bind] at h
      | ok r =>
          have hs := slot_eq_ok_iff.mp hsource
          have hr := slot_eq_ok_iff.mp htarget
          have hentry := hs.entry?_eq_file hfile
          rw [← hs.location] at hfile ⊢
          rw [← hr.location]
          simp only [rename, hsource, htarget, hentry, bind, Except.bind] at h
          split at h
          · rename_i hsame
            obtain rfl := hsame
            obtain rfl : t = t' := by simpa using h
            refine ⟨⟨s, hr⟩, by simp [hfile], ?_⟩
            intro l
            split
            · rename_i hl
              rw [hl, hfile]
            · rfl
          · cases hreplace : mayReplace (.file bytes) (t.entry? r) with
            | error fault => simp [hreplace] at h
            | ok _ =>
                obtain rfl : (t.erase s).insert r (.file bytes) = t' := by
                  simpa [hreplace] using h
                have hold : t.node? r.location ≠ some .directory :=
                  ne_directory_of_mayReplace hreplace
                refine ⟨⟨r, hr⟩, hold, ?_⟩
                apply node?_insert_erase hs.directory hr.directory hfile hold

end Tree

end ElmSchema
