import ElmSchema.FileSystem
import ElmSchema.Proofs.Disk.Tree
import ElmSchema.Proofs.Text.Loose

/-!
# Paths of directory entries

The path of an entry is that of its directory with a further part. Here is what the path of the
directory says about it: the location it names, its text, and whether it can be looked at. A name
that ends in an ASCII character stands for a name that ends in the same character, so names
with different suffixes stand for different names. In a path that can be looked at, only the part
`..` stands for the directory above, so the names of its normal form are its location. Names are
in a linear order.
-/

namespace ElmSchema

/-! ### Names that end in an ASCII character -/

namespace Text.Utf8

theorem low_of_lead? {b : UInt8} {l : Lead} (h : lead? b = some l) :
  0x80 ≤ l.low
  := by
  unfold lead? at h
  grind

/-- An ASCII byte continues no sequence, so the bytes of a sequence lie before it. -/
theorem count_le_of_continuation {b : UInt8} (hb : b.toNat < 0x80) :
  ∀ {count bits low high fitted n : Nat} {bytes : List UInt8}, 0x80 ≤ low →
    continuation bits low high fitted count (bytes ++ [b]) = .ok n → count ≤ bytes.length
  | 0, _, _, _, _, _, _, _, _ => Nat.zero_le _
  | count + 1, bits, low, high, fitted, n, [], hlow, h => by
      have hfits : (low ≤ b.toNat && b.toNat ≤ high) = false := by
        simp
        omega
      simp [continuation, hfits] at h
  | count + 1, bits, low, high, fitted, n, c :: bytes, hlow, h => by
      rw [List.cons_append, continuation] at h
      split at h
      · have := count_le_of_continuation hb (Nat.le_refl 0x80) h
        simpa using this
      · simp at h

/-- An ASCII byte at the end is read as its character. -/
theorem getLast?_decodeLooseFrom {b : UInt8} (hb : b.toNat < 0x80) :
  ∀ {skip : Nat} {bytes : List UInt8}, skip ≤ bytes.length →
    (decodeLooseFrom skip (bytes ++ [b])).getLast? = some (.char (Char.ofNat b.toNat))
  | skip + 1, c :: bytes, h => by
      rw [List.cons_append, decodeLooseFrom]
      apply getLast?_decodeLooseFrom hb
      simpa using h
  | 0, [], _ => by
      simp [decodeLooseFrom, lead?, hb, continuation]
  | 0, c :: bytes, _ => by
      have hlast (x : LooseChar) {skip : Nat} (hskip : skip ≤ bytes.length) :
          (x :: decodeLooseFrom skip (bytes ++ [b])).getLast?
            = some (.char (Char.ofNat b.toNat)) := by
        rw [List.getLast?_cons, getLast?_decodeLooseFrom hb hskip]
        rfl
      rw [List.cons_append, decodeLooseFrom]
      split
      · apply hlast _ (Nat.zero_le _)
      · rename_i l hl
        split
        · apply hlast _ (Nat.zero_le _)
        · rename_i n hn
          apply hlast _ (count_le_of_continuation hb (low_of_lead? hl) hn)

/-! ### Bytes that are read as dots -/

theorem continuation_succ_eq_ok
    {count bits low high fitted n : Nat} {bytes : List UInt8}
    (h : continuation bits low high fitted (count + 1) bytes = .ok n) :
  ∃ c rest, low ≤ UInt8.toNat c ∧
    continuation (bits * 64 + (c.toNat - 0x80)) 0x80 0xBF (fitted + 1) count rest = .ok n
  := by
  cases bytes with
  | nil => simp [continuation] at h
  | cons c rest =>
      rw [continuation] at h
      split at h
      · rename_i hfits
        rw [Bool.and_eq_true, decide_eq_true_eq] at hfits
        use c, rest, hfits.1
      · simp at h

theorem le_of_continuation {count bits low high fitted n : Nat} {bytes : List UInt8}
    (h : continuation bits low high fitted count bytes = .ok n) :
  bits ≤ n
  := by
  induction count generalizing bits low high fitted bytes with
  | zero =>
      obtain rfl : bits = n := by simpa [continuation] using h
      apply Nat.le_refl
  | succ count ih =>
      obtain ⟨c, rest, -, hrest⟩ := continuation_succ_eq_ok h
      have := ih hrest
      omega

/-- A continuation byte puts the bits before it above its own. -/
theorem le_of_continuation_succ {count bits low high fitted n : Nat} {bytes : List UInt8}
    (h : continuation bits low high fitted (count + 1) bytes = .ok n) :
  bits * 64 + (low - 0x80) ≤ n
  := by
  obtain ⟨c, rest, hlow, hrest⟩ := continuation_succ_eq_ok h
  have := le_of_continuation hrest
  omega

/-- A lead byte and the least byte that may follow it lead beyond ASCII, at once or with a
further byte. -/
theorem exists_continuations
    {b : UInt8} {l : Lead} (h : lead? b = some l) (hb : 0x80 ≤ b.toNat) :
  (∃ count, l.continuations = count + 1 ∧ 0x80 ≤ l.bits * 64 + (l.low - 0x80)) ∨
    ∃ count, l.continuations = count + 2 ∧ 2 ≤ l.bits * 64 + (l.low - 0x80)
  := by
  simp only [lead?, if_neg (Nat.not_lt.mpr hb)] at h
  split at h
  · simp at h
  · split at h
    · obtain rfl := Option.some.inj h
      left
      use 0, rfl
      dsimp only
      omega
    · right
      split at h
      · obtain rfl := Option.some.inj h
        use 0, rfl
        dsimp only
        split <;> omega
      · split at h
        · obtain rfl := Option.some.inj h
          use 1, rfl
          dsimp only
          split <;> omega
        · simp at h

/-- A sequence that does not start with an ASCII byte stands for no ASCII character. -/
theorem le_of_lead?
    {b : UInt8} {l : Lead} {n fitted : Nat} {bytes : List UInt8} (hlead : lead? b = some l)
    (hb : 0x80 ≤ b.toNat)
    (h : continuation l.bits l.low l.high fitted l.continuations bytes = .ok n) :
  0x80 ≤ n
  := by
  rcases exists_continuations hlead hb with ⟨count, hcount, hle⟩ | ⟨count, hcount, hle⟩
  · rw [hcount] at h
    exact Nat.le_trans hle (le_of_continuation_succ h)
  · rw [hcount] at h
    obtain ⟨c, rest, hlow, hrest⟩ := continuation_succ_eq_ok h
    have := le_of_continuation_succ hrest
    omega

theorem eq_of_ofNat_eq_dot {n : Nat} (h : Char.ofNat n = '.') :
  n = 0x2e
  := by
  by_cases hn : n.isValidChar
  · rw [Char.ofNat, dif_pos hn] at h
    exact congrArg Char.toNat h
  · rw [Char.ofNat, dif_neg hn] at h
    exact absurd (congrArg Char.toNat h) (by decide)

/-- Bytes that are read as dots are ASCII bytes. -/
theorem lt_of_decodeLooseFrom :
  ∀ {skip : Nat} {bytes : List UInt8}, (∀ x ∈ decodeLooseFrom skip bytes, x = .char '.') →
    ∀ b ∈ bytes.drop skip, b.toNat < 0x80
  | _, [], _, b, hb => by simp at hb
  | skip + 1, c :: rest, h, b, hb => by
      rw [decodeLooseFrom] at h
      exact lt_of_decodeLooseFrom h b hb
  | 0, c :: rest, h, b, hb => by
      have hc : c.toNat < 0x80 := by
        by_contra hc
        rw [decodeLooseFrom] at h
        split at h
        · simpa [LooseChar.ofByte] using h _ List.mem_cons_self
        · rename_i l hl
          split at h
          · simpa [LooseChar.ofByte] using h _ List.mem_cons_self
          · rename_i n hn
            have hle := le_of_lead? hl (Nat.not_lt.mp hc) hn
            have hdot := eq_of_ofNat_eq_dot (LooseChar.char.inj (h _ List.mem_cons_self))
            omega
      have hrest : decodeLooseFrom 0 (c :: rest) = .char (Char.ofNat c.toNat) ::
          decodeLooseFrom 0 rest := by
        simp [decodeLooseFrom, lead?, hc, continuation]
      rw [hrest, List.forall_mem_cons] at h
      rw [List.drop_zero, List.mem_cons] at hb
      rcases hb with rfl | hb
      · apply hc
      · exact lt_of_decodeLooseFrom h.2 b hb

/-- The byte of a half is no ASCII byte. -/
theorem le_of_byte? {x : LooseChar} {b : UInt8} (h : x.byte? = some b) :
  0x80 ≤ b.toNat
  := by
  cases x with
  | char c => simp [LooseChar.byte?] at h
  | half index =>
      simp only [LooseChar.byte?] at h
      split at h
      · rename_i hrange
        obtain rfl := Option.some.inj h
        rw [Bool.and_eq_true, decide_eq_true_eq, decide_eq_true_eq] at hrange
        rw [UInt8.toNat_ofNat']
        omega
      · simp at h

end Text.Utf8

namespace Path

theorem settled_ofString (s : String) :
  settled (LooseText.ofString s) = LooseText.ofString s
  := by
  rw [settled, LooseText.hasHalf_ofString, if_neg Bool.false_ne_true]

/-- A part that ends in `l` stands for a name that does. -/
theorem getLast?_settled {part : LooseText} (h : part.getLast? = some (.char 'l')) :
  (settled part).getLast? = some (.char 'l')
  := by
  rw [settled]
  split
  · obtain ⟨start, rfl⟩ := List.getLast?_eq_some_iff.mp h
    have hencode : Text.Utf8.encodeLoose (start ++ [.char 'l'])
        = Text.Utf8.encodeLoose start ++ [0x6c] := by
      rw [Text.Utf8.encodeLoose, List.flatMap_append]
      rfl
    rw [hencode, Text.Utf8.decodeLoose]
    apply Text.Utf8.getLast?_decodeLooseFrom (by decide) (Nat.zero_le _)
  · apply h

/-- The one part that stands for the directory above is `..`, unless a half stands for no
byte. -/
theorem settled_eq_up_iff {part : LooseText} (h : ∀ x ∈ part, x.isNameable) :
  settled part = up ↔ part = up
  := by
  rw [settled]
  split
  · rename_i hhalf
    obtain ⟨x, hx, hxhalf⟩ := List.any_eq_true.mp hhalf
    obtain ⟨b, hb⟩ : ∃ b, x.byte? = some b := by
      have := h x hx
      rw [LooseChar.isNameable, hxhalf] at this
      exact Option.isSome_iff_exists.mp this
    constructor
    · intro hup
      have hmem : b ∈ Text.Utf8.encodeLoose part := by
        rw [Text.Utf8.encodeLoose, List.mem_flatMap]
        use x, hx
        cases x with
        | char c => simp [LooseChar.isHalf] at hxhalf
        | half index => simp [Text.Utf8.encodeUnit, hb]
      have hdots : ∀ y ∈ Text.Utf8.decodeLooseFrom 0 (Text.Utf8.encodeLoose part),
          y = .char '.' := by
        intro y hy
        have hy : y ∈ up := hup ▸ hy
        simpa [up] using hy
      have hlt := Text.Utf8.lt_of_decodeLooseFrom hdots b hmem
      exact absurd (Text.Utf8.le_of_byte? hb) (Nat.not_le.mpr hlt)
    · rintro rfl
      simp [up, LooseText.hasHalf, LooseChar.isHalf] at hhalf
  · rfl

/-! ### Suffixes -/

/-- A name ends as its suffix does. -/
theorem getLast?_name {p : Path} (h : p.suffix ≠ []) :
  p.name.getLast? = p.suffix.getLast?
  := by
  unfold suffix splitName at *
  dsimp only at *
  split at h
  · rename_i hparts
    rw [if_pos hparts, List.getLast?_drop, if_neg]
    simp only [Bool.and_eq_true, decide_eq_true_eq] at hparts
    omega
  · simp at h

/-! ### Entries of a directory -/

theorem parent_child (p : Path) (part : LooseText) :
  (p.child part).parent = p
  := by
  simp [parent, child]

theorem name_child (p : Path) (part : LooseText) :
  (p.child part).name = part
  := by
  simp [name, child]

theorem names_child (p : Path) (part : LooseText) :
  (p.child part).names = p.names ++ [settled part]
  := by
  simp [names, child]

theorem location_child (p : Path) {part : LooseText} (h : settled part ≠ up) :
  (p.child part).location = p.location ++ [settled part]
  := by
  rw [location, names_child, collapse_append, collapse, if_neg (by simpa using h)]
  rfl

theorem intercalate_concat (separator : LooseText) :
  ∀ (parts : List LooseText) (part : LooseText), parts ≠ [] →
    List.intercalate separator (parts ++ [part])
      = List.intercalate separator parts ++ separator ++ part
  | [first], part, _ => by simp
  | first :: next :: rest, part, _ => by
      have ih := intercalate_concat separator (next :: rest) part (by simp)
      simp only [List.cons_append, List.intercalate_cons_cons] at ih ⊢
      rw [ih]
      simp only [List.append_assoc]

/-- The text of an entry is a text that the directory determines, followed by the part. -/
theorem exists_looseText_child (p : Path) :
  ∃ start, (∀ part, (p.child part).looseText = start ++ part) ∧
    ∀ x ∈ start, x ∈ p.looseText ∨ x = .char '/'
  := by
  by_cases hparts : p.parts = []
  · use LooseText.ofString p.root
    constructor
    · intro part
      simp [looseText, child, hparts]
    · intro x hx
      left
      have hroot : p.root ≠ "" := by
        rintro heq
        simp [heq, LooseText.ofString] at hx
      simp [looseText, hparts, hroot, hx]
  · use LooseText.ofString p.root ++ (List.intercalate [.char '/'] p.parts ++ [.char '/'])
    constructor
    · intro part
      simp [looseText, child, intercalate_concat _ _ _ hparts]
    · intro x hx
      simp only [looseText, hparts, List.mem_append, List.mem_singleton, List.isEmpty_iff,
        Bool.and_eq_true, and_false, if_false] at hx ⊢
      tauto

theorem mem_intercalate {separator : LooseText} {x : LooseChar} :
  ∀ {parts : List LooseText}, x ∈ List.intercalate separator parts →
    x ∈ separator ∨ ∃ part ∈ parts, x ∈ part
  | [], h => by simp at h
  | [first], h => by
      right
      use first
      simpa using h
  | first :: next :: rest, h => by
      rw [List.intercalate_cons_cons, List.mem_append, List.mem_append] at h
      rcases h with (h | h) | h
      · right
        use first, List.mem_cons_self
      · left
        apply h
      · rcases mem_intercalate h with h | ⟨part, hpart, h⟩
        · left
          apply h
        · right
          use part, List.mem_cons_of_mem _ hpart

theorem mem_intercalate_of_mem {separator part : LooseText} {x : LooseChar} (hx : x ∈ part) :
  ∀ {parts : List LooseText}, part ∈ parts → x ∈ List.intercalate separator parts
  | [first], h => by
      obtain rfl := List.mem_singleton.mp h
      simpa using hx
  | first :: next :: rest, h => by
      rw [List.intercalate_cons_cons, List.mem_append, List.mem_append]
      rcases List.mem_cons.mp h with rfl | h
      · left
        left
        apply hx
      · right
        exact mem_intercalate_of_mem hx h

/-- The text of a path fits into the name of a file just if its parts do. -/
theorem all_isNameable_iff {p : Path} :
  p.looseText.all LooseChar.isNameable = true ↔ ∀ part ∈ p.parts, ∀ x ∈ part, x.isNameable
  := by
  rw [List.all_eq_true, looseText]
  split
  · rename_i hempty
    rw [Bool.and_eq_true, List.isEmpty_iff] at hempty
    simp [hempty.2, here, LooseChar.isNameable, LooseChar.isHalf]
  · constructor
    · intro h part hpart x hx
      apply h
      rw [List.mem_append]
      right
      exact mem_intercalate_of_mem hx hpart
    · intro h x hx
      rcases List.mem_append.mp hx with hx | hx
      · simp [LooseChar.isNameable, LooseText.isHalf_of_mem_ofString hx]
      · rcases mem_intercalate hx with hx | ⟨part, hpart, hx⟩
        · obtain rfl := List.mem_singleton.mp hx
          rfl
        · exact h part hpart x hx

/-- A path can be looked at if its parts hold neither NUL nor a half that stands for no
byte. -/
theorem fault?_eq_none_iff {p : Path} :
  p.fault? = none ↔ ∀ part ∈ p.parts, ∀ x ∈ part, x.isNameable ∧ x ≠ .char '\x00'
  := by
  have hnull : p.hasNull = false ↔ ∀ part ∈ p.parts, ∀ x ∈ part, x ≠ .char '\x00' := by
    simp only [hasNull, List.any_eq_false, List.contains_iff_mem]
    grind
  have hboth : p.fault? = none ↔
      p.looseText.all LooseChar.isNameable = true ∧ p.hasNull = false := by
    rw [fault?]
    cases p.looseText.all LooseChar.isNameable <;> cases p.hasNull <;> simp
  rw [hboth, all_isNameable_iff, hnull]
  constructor
  · rintro ⟨hnames, hchars⟩ part hpart x hx
    use hnames part hpart x hx, hchars part hpart x hx
  · intro h
    use fun part hpart x hx => (h part hpart x hx).1, fun part hpart x hx => (h part hpart x hx).2

theorem fault?_child_iff {p : Path} {part : LooseText} :
  (p.child part).fault? = none ↔
    p.fault? = none ∧ ∀ x ∈ part, x.isNameable ∧ x ≠ .char '\x00'
  := by
  rw [fault?_eq_none_iff, fault?_eq_none_iff, child, List.forall_mem_append,
    List.forall_mem_singleton]

theorem fault?_eq_none_iff_parent {p : Path} :
  p.fault? = none ↔
    p.parent.fault? = none ∧ ∀ x ∈ p.name, x.isNameable ∧ x ≠ .char '\x00'
  := by
  rw [fault?_eq_none_iff, fault?_eq_none_iff, parent, name]
  rcases List.eq_nil_or_concat p.parts with hparts | ⟨init, last, hparts⟩
  · simp [hparts]
  · rw [hparts, List.concat_eq_append, List.dropLast_concat, List.getLast?_concat,
      List.forall_mem_append, List.forall_mem_singleton, Option.getD_some]

/-- A string without the NUL character can stand in a name. -/
theorem nameable_of_mem_ofString {s : String} (hs : '\x00' ∉ s.toList) :
  ∀ x ∈ LooseText.ofString s, x.isNameable ∧ x ≠ .char '\x00'
  := by
  intro x hx
  obtain ⟨c, hc, rfl⟩ := List.mem_map.mp hx
  use rfl
  intro heq
  obtain rfl := LooseChar.char.inj heq
  apply hs hc

/-- An entry of a directory that can be looked at can be looked at, if its name is a string
without the NUL character. -/
theorem fault?_child {p : Path} {s : String} (hp : p.fault? = none) (hs : '\x00' ∉ s.toList) :
  (p.child (LooseText.ofString s)).fault? = none
  := fault?_child_iff.mpr ⟨hp, nameable_of_mem_ofString hs⟩

/-- A name that is no longer than another one leads to a path that is not oversize if that of
the other one is not. -/
theorem isOversize_child
    {p : Path} {part other : LooseText} (hsize : part.byteSize ≤ other.byteSize)
    (h : Tree.isOversize (p.child other) = false) :
  Tree.isOversize (p.child part) = false
  := by
  obtain ⟨start, htext, -⟩ := p.exists_looseText_child
  simp only [Tree.isOversize, htext, LooseText.byteSize_append, decide_eq_false_iff_not,
    Nat.not_lt] at h ⊢
  omega

theorem splitAt_of_not_mem {separator : LooseChar} :
  ∀ {text : LooseText}, separator ∉ text → splitAt separator text = [text]
  | [], _ => rfl
  | x :: rest, h => by
      rw [List.mem_cons, not_or] at h
      rw [splitAt, splitAt_of_not_mem h.2, if_neg]
      simpa using Ne.symm h.1

/-- A text that is a name is read from a base as the entry of that name. -/
theorem join_eq_child
    {base : Path} {text : LooseText} (hslash : LooseChar.char '/' ∉ text) (hempty : text ≠ [])
    (hhere : text ≠ here) :
  base.join text = base.child text
  := by
  have hroot : rootOf text = "" := by
    cases text with
    | nil => rfl
    | cons x rest =>
        have hx : x ≠ .char '/' := by
          rintro rfl
          simp at hslash
        simp [rootOf, hx]
  have hparts : (ofText text).parts = [text] := by
    rw [ofText, splitAt_of_not_mem hslash, List.filter_cons_of_pos]
    · rfl
    · simp [hempty, hhere]
  have hroot' : (ofText text).root = "" := hroot
  simp [join, hroot', hparts, child]

/-! ### Normal paths -/

theorem up_not_mem_collapse :
  ∀ {parts done : List LooseText}, up ∉ done → up ∉ collapse done parts
  | [], done, h => h
  | part :: rest, done, h => by
      rw [collapse]
      split
      · apply up_not_mem_collapse
        intro hmem
        apply h ((List.dropLast_sublist done).subset hmem)
      · rename_i hpart
        apply up_not_mem_collapse
        rw [List.mem_append, List.mem_singleton, not_or]
        use h
        rintro rfl
        simp at hpart

theorem collapse_of_up_not_mem :
  ∀ {parts : List LooseText} (done : List LooseText), up ∉ parts →
    collapse done parts = done ++ parts
  | [], done, _ => by simp [collapse]
  | part :: rest, done, h => by
      rw [List.mem_cons, not_or] at h
      rw [collapse, if_neg (by simpa using Ne.symm h.1), collapse_of_up_not_mem _ h.2]
      simp

theorem map_collapse {f : LooseText → LooseText} :
  ∀ {parts : List LooseText} (done : List LooseText), (∀ part ∈ parts, f part = up ↔ part = up) →
    (collapse done parts).map f = collapse (done.map f) (parts.map f)
  | [], done, _ => rfl
  | part :: rest, done, h => by
      obtain ⟨hpart, hrest⟩ := List.forall_mem_cons.mp h
      rw [collapse, List.map_cons, collapse, map_collapse _ hrest]
      by_cases hup : part = up
      · rw [if_pos (by simpa using hup), if_pos (by simpa using hpart.mpr hup), List.map_dropLast]
      · rw [if_neg (by simpa using hup), if_neg (by simpa using fun h => hup (hpart.mp h)),
          List.map_append, List.map_singleton]

theorem mem_of_mem_collapse :
  ∀ {parts done : List LooseText} {part : LooseText}, part ∈ collapse done parts →
    part ∈ done ∨ part ∈ parts
  | [], done, part, h => .inl h
  | first :: rest, done, part, h => by
      rw [collapse] at h
      split at h
      · rcases mem_of_mem_collapse h with h | h
        · left
          exact (List.dropLast_sublist done).subset h
        · right
          exact List.mem_cons_of_mem _ h
      · rcases mem_of_mem_collapse h with h | h
        · rw [List.mem_append, List.mem_singleton] at h
          rw [List.mem_cons]
          tauto
        · right
          exact List.mem_cons_of_mem _ h

/-- What is normal with another root stays so. -/
theorem normalize_normalize (p : Path) (root : String) :
  normalize { p.normalize with root := root } = { p.normalize with root := root }
  := by
  have hup : up ∉ collapse [] p.parts := up_not_mem_collapse (by simp)
  simp only [normalize, collapse_of_up_not_mem [] hup, List.nil_append]

/-- The names of a normal path are those that lead to its location. -/
theorem names_normalize {p : Path} (h : p.fault? = none) :
  p.normalize.names = p.location
  := by
  rw [fault?_eq_none_iff] at h
  rw [names, normalize, location, map_collapse, names, List.map_nil]
  intro part hpart
  apply settled_eq_up_iff
  intro x hx
  apply (h part hpart x hx).1

theorem fault?_normalize {p : Path} (h : p.fault? = none) :
  p.normalize.fault? = none
  := by
  rw [fault?_eq_none_iff] at h ⊢
  intro part hpart
  rcases mem_of_mem_collapse hpart with hnil | hpart
  · simp at hnil
  · apply h part hpart

end Path

/-! ### The order of names -/

theorem LooseChar.code_injective {x y : LooseChar} (h : x.code = y.code) :
  x = y
  := by
  have hchar (c : Char) (index : Fin 0x800) : c.toNat ≠ 0xD800 + index.val := by
    have hindex := index.isLt
    have hvalid : c.toNat < 0xD800 ∨ 0xDFFF < c.toNat ∧ c.toNat < 0x110000 := c.valid
    omega
  cases x with
  | char c =>
      cases y with
      | char c' => rw [Char.toNat_inj.mp h]
      | half index => exact absurd h (hchar c index)
  | half index =>
      cases y with
      | char c => exact absurd h.symm (hchar c index)
      | half index' =>
          have : index.val = index'.val := Nat.add_left_cancel h
          rw [Fin.ext this]

instance : Std.Asymm (fun x y : LooseChar => x < y) :=
  ⟨fun _ _ h => Nat.lt_asymm h⟩

instance : Std.Trichotomous (fun x y : LooseChar => x < y) :=
  ⟨fun _ _ hxy hyx =>
    LooseChar.code_injective (Nat.le_antisymm (Nat.not_lt.mp hyx) (Nat.not_lt.mp hxy))⟩

instance : Trans (fun x y : LooseChar => x < y) (fun x y => x < y) (fun x y => x < y) :=
  ⟨Nat.lt_trans⟩

namespace LooseText

theorem le_total (s t : LooseText) :
  s ≤ t ∨ t ≤ s
  := List.le_total s t

theorem le_trans {s t u : LooseText} (hst : s ≤ t) (htu : t ≤ u) :
  s ≤ u
  := by
  have : Trans (fun x y : LooseChar => ¬ x < y) (fun x y => ¬ x < y) (fun x y => ¬ x < y) :=
    ⟨fun hxy hyz => Nat.not_lt.mpr (Nat.le_trans (Nat.not_lt.mp hyz) (Nat.not_lt.mp hxy))⟩
  let := LE.ofLT LooseChar
  have : Std.IsLinearOrder LooseChar := Std.IsLinearOrder.of_lt
  exact List.le_trans hst htu

theorem lt_of_not_lt {s t : LooseText} (hne : s ≠ t) (h : ¬ s < t) :
  t < s
  := by
  by_contra h'
  exact hne (List.le_antisymm h' h)

end LooseText

end ElmSchema
