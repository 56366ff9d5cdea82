import ElmSchema.Proofs.Name.Boundaries

/-!
# Spellings of spellings

A spelling is a name too and can be spelled again. The words in the spelling of a name are the
words of the name, each spelled for itself, except that two numbers next to each other become
one word, and so do single letters next to each other. A number has one spelling only, but
letters that become one word lose all capitals but the first. So spelling a name again changes
nothing exactly if no two single letters are next to each other among its words. In a spelling
there are no such letters any more, so spelling a name a third time never changes anything.

In camel case the first word is in lower case, and stays apart from a single letter behind it.
-/

namespace ElmSchema.Name

/-! ### Texts next to each other -/

theorem isAlpha_eq_not_isDigit {c : Char} (h : c.isAlphanum) :
  c.isAlpha = !c.isDigit
  := by
  rcases isAlphanum_cases h with h | h | h <;> simp [Char.isAlpha, h]

/-- There is no boundary between two characters, whatever follows. -/
def NoBoundary (x y : Char) : Prop :=
  ∀ after, isBoundary x y after = false

/-- There is no boundary between a letter and a lower-case letter. -/
theorem noBoundary_of_isLower {x y : Char} (hx : x.isAlpha) (hy : y.isLower) :
  NoBoundary x y
  := by
  intro after
  have hx' : x.isDigit = false := by
    simpa [hx] using isAlpha_eq_not_isDigit (c := x) (by simp [Char.isAlphanum, hx])
  simp [isBoundary, hx', not_of_isLower hy]

/-- There is no boundary between digits. -/
theorem noBoundary_of_isDigit {x y : Char} (hx : x.isDigit) (hy : y.isDigit) :
  NoBoundary x y
  := by
  intro after
  simp [isBoundary, Char.isAlpha, not_of_isDigit hx, not_of_isDigit hy]

/-- Between capitals there is a boundary if a lower-case letter follows. -/
theorem isBoundary_capitals {x y : Char} (hx : x.isUpper) (hy : y.isUpper) (after : List Char) :
  isBoundary x y after = startsLower after
  := by
  simp [isBoundary, hx, hy, not_of_isUpper hx, not_of_isUpper hy]

/-- Whether a word ends within a text does not depend on what follows the text, if there is a
boundary at its end. -/
theorem endsWord_append
    (c : Char) (u : List Char) {x y : Char} {after : List Char} (h : isBoundary x y after) :
  endsWord c (u ++ x :: y :: after) = endsWord c (u ++ [x])
  := by
  match u with
  | [] =>
      -- What follows `x` matters only if `x` is a capital and a lower-case letter follows.
      have hxy : ¬ (x.isUpper ∧ y.isLower) := by
        rintro ⟨hx, hy⟩
        rw [noBoundary_of_isLower (by simp [Char.isAlpha, hx]) hy] at h
        simp at h
      cases hx : x.isUpper with
      | false => simp [endsWord, isBoundary, hx]
      | true =>
          have hy : y.isLower = false := by simpa [hx] using hxy
          simp [endsWord, isBoundary, hy, startsLower]
  | [_] => rfl
  | _ :: _ :: _ => rfl

/-- The words of two texts are those of the one and those of the other, if each word of the
first text ends there as it does without the second. -/
theorem words_append_of_endsWord
    {u v : List Char}
    (h : ∀ init c rest, u = init ++ c :: rest → endsWord c (rest ++ v) = endsWord c rest) :
  words (u ++ v) = words u ++ words v
  := by
  induction u with
  | nil => rfl
  | cons c u ih =>
      have ih := ih fun init d rest hu => h (c :: init) d rest (by rw [hu, List.cons_append])
      have hsame := h [] c u rfl
      rw [List.cons_append]
      cases hc : c.isAlphanum with
      | false => rw [words_cons_of_not_isAlphanum hc, words_cons_of_not_isAlphanum hc, ih]
      | true =>
          cases hend : endsWord c u with
          | true =>
              rw [words_cons_of_endsWord hc hend, words_cons_of_endsWord hc (hsame.trans hend), ih]
              rfl
          | false =>
              obtain ⟨_, _, w, ws, hrest, hwords, hlonger⟩ := exists_words_cons hc hend
              obtain ⟨_, _, w', ws', hrest', hwords', hlonger'⟩ :=
                exists_words_cons hc (hsame.trans hend)
              rw [hwords, hwords'] at ih
              obtain ⟨hw, rfl⟩ := List.cons.inj ih
              rw [hlonger, hlonger', hw]
              rfl

/-- The words of two texts with a boundary between them are those of the one and those of the
other. -/
theorem words_append
    {u : List Char} {x y : Char} {after : List Char} (hu : u.getLast? = some x)
    (h : isBoundary x y after) :
  words (u ++ y :: after) = words u ++ words (y :: after)
  := by
  apply words_append_of_endsWord
  rintro init c rest rfl
  rcases List.eq_nil_or_concat' rest with rfl | ⟨rest, x', rfl⟩
  · obtain rfl : c = x := by simpa using hu
    simp [endsWord, h]
  · rw [← List.cons_append, ← List.append_assoc, List.getLast?_concat] at hu
    obtain rfl := Option.some.inj hu
    rw [List.append_assoc, List.singleton_append]
    apply endsWord_append c rest h

/-- Characters between which there is no boundary, whatever follows, are in the word of the
character behind them. -/
theorem words_append_of_isChain
    {u : List Char} {y : Char} {after w : List Char} {ws : List (List Char)}
    (hu : ∀ c ∈ u ++ [y], c.isAlphanum)
    (hchain : (u ++ [y]).IsChain NoBoundary)
    (hwords : words (y :: after) = w :: ws) :
  words (u ++ y :: after) = (u ++ w) :: ws
  := by
  induction u with
  | nil => apply hwords
  | cons c u ih =>
      rw [List.cons_append, List.forall_mem_cons] at hu
      rw [List.cons_append, List.isChain_cons] at hchain
      have hend : endsWord c (u ++ y :: after) = false := by
        cases u with
        | nil => simpa [endsWord, hu.2 y (by simp)] using hchain.1 y (by simp) after
        | cons d u =>
            simpa [endsWord, hu.2 d (by simp)] using hchain.1 d (by simp) (u ++ y :: after)
      obtain ⟨_, _, _, _, -, hwords', hlonger⟩ := exists_words_cons hu.1 hend
      rw [ih hu.2 hchain.2] at hwords'
      rw [List.cons_append, hlonger]
      obtain ⟨hw, rfl⟩ := List.cons.inj hwords'
      rw [← hw]
      rfl

theorem words_of_isChain
    {cs : List Char} (hne : cs ≠ []) (hcs : ∀ c ∈ cs, c.isAlphanum)
    (hchain : cs.IsChain NoBoundary) :
  words cs = [cs]
  := by
  rcases List.eq_nil_or_concat' cs with rfl | ⟨u, y, rfl⟩
  · exact absurd rfl hne
  · apply words_append_of_isChain hcs hchain
    apply words_cons_of_endsWord (hcs y (by simp)) rfl

/-! ### Words and their spellings -/

/-- A word is a number or consists of letters. -/
inductive IsWord : List Char → Prop where
  | number {w : List Char} : w ≠ [] → (∀ d ∈ w, d.isDigit) → IsWord w
  | letters {c : Char} {rest : List Char} :
      c.isAlpha → (∀ d ∈ rest, d.isAlpha) → IsWord (c :: rest)

theorem IsWord.exists_eq_cons {w : List Char} (hw : IsWord w) :
  ∃ c rest, w = c :: rest
  := by
  cases hw with
  | number hne _ => apply List.exists_cons_of_ne_nil hne
  | letters _ _ => exact ⟨_, _, rfl⟩

/-- A text is split into words. -/
theorem Splits.isWord {cs : List Char} {ws : List (List Char)} (h : Splits cs ws) :
  ∀ w ∈ ws, IsWord w
  := by
  induction h with
  | nil => simp
  | drop _ _ ih => apply ih
  | @single x _ _ hx _ _ ih =>
      rw [List.forall_mem_cons]
      refine ⟨?_, ih⟩
      cases hdigit : x.isDigit with
      | true => apply IsWord.number (List.cons_ne_nil x []) (by simpa using hdigit)
      | false =>
          apply IsWord.letters _ (by simp)
          simpa [hdigit] using isAlpha_eq_not_isDigit hx
  | @join x y _ w _ hx hy hboundary _ ih =>
      rw [List.forall_mem_cons] at ih ⊢
      refine ⟨?_, ih.2⟩
      have hx' := isAlpha_eq_not_isDigit hx
      simp only [isBoundary, Bool.or_eq_false_iff, Bool.and_eq_false_iff] at hboundary
      cases ih.1 with
      | number _ hw =>
          apply IsWord.number (List.cons_ne_nil x (y :: w))
          refine List.forall_mem_cons.mpr ⟨?_, hw⟩
          simpa [hw y List.mem_cons_self, hx'] using hboundary.1.1.2
      | letters halpha hrest =>
          apply IsWord.letters
          · simpa [halpha, hx'] using hboundary.1.1.1
          · rw [List.forall_mem_cons]
            exact ⟨halpha, hrest⟩

theorem toUpper_of_isDigit {c : Char} (hc : c.isDigit) :
  c.toUpper = c
  := by
  apply Char.toUpper_eq_of_not_isLower
  simp [not_of_isDigit hc]

theorem toLower_of_isDigit {c : Char} (hc : c.isDigit) :
  c.toLower = c
  := by
  apply Char.toLower_eq_of_not_isUpper
  simp [not_of_isDigit hc]

/-- A number is its own lower case. -/
theorem lowercase_number {w : List Char} (hw : ∀ d ∈ w, d.isDigit) :
  lowercase w = w
  := by
  rw [lowercase, List.map_congr_left fun d hd => toLower_of_isDigit (hw d hd), List.map_id']

/-- A number before a digit is its own spelling. -/
theorem capitalize_number_append
    {w : List Char} (hw : ∀ d ∈ w, d.isDigit) {c : Char} (hc : c.isDigit) (rest : List Char) :
  capitalize (w ++ c :: rest) = w ++ capitalize (c :: rest)
  := by
  cases w with
  | nil => rfl
  | cons d w =>
      rw [List.forall_mem_cons] at hw
      have hw' : w.map Char.toLower = w := lowercase_number hw.2
      simp [capitalize, toUpper_of_isDigit hw.1, toUpper_of_isDigit hc, toLower_of_isDigit hc, hw']

theorem capitalize_number {w : List Char} (hw : ∀ d ∈ w, d.isDigit) :
  capitalize w = w
  := by
  rcases List.eq_nil_or_concat' w with rfl | ⟨u, d, rfl⟩
  · rfl
  · rw [List.forall_mem_append] at hw
    rw [capitalize_number_append hw.1 (hw.2 d (by simp))]
    simp [capitalize, toUpper_of_isDigit (hw.2 d (by simp))]

theorem capitalize_capitalize (w : List Char) :
  capitalize (capitalize w) = capitalize w
  := by
  cases w with
  | nil => rfl
  | cons c rest => simp [capitalize]

/-- A number has no boundaries. -/
theorem isChain_number {w : List Char} (hw : ∀ d ∈ w, d.isDigit) :
  w.IsChain NoBoundary
  := by
  apply List.Pairwise.isChain
  apply List.pairwise_of_forall_mem_list
  exact fun x hx y hy => noBoundary_of_isDigit (hw x hx) (hw y hy)

theorem isLower_of_mem_lowercase
    {w : List Char} (hw : ∀ d ∈ w, d.isAlpha) {c : Char} (hc : c ∈ lowercase w) :
  c.isLower
  := by
  obtain ⟨d, hd, rfl⟩ := List.mem_map.mp hc
  simpa using hw d hd

/-- Letters in lower case have no boundaries, also with a letter before them. -/
theorem isChain_cons_lowercase
    {c : Char} (hc : c.isAlpha) {w : List Char} (hw : ∀ d ∈ w, d.isAlpha) :
  (c :: lowercase w).IsChain NoBoundary
  := by
  rw [List.isChain_cons]
  constructor
  · intro y hy
    apply noBoundary_of_isLower hc
    apply isLower_of_mem_lowercase hw (List.mem_of_mem_head? hy)
  · apply List.Pairwise.isChain
    apply List.pairwise_of_forall_mem_list
    intro x hx y hy
    apply noBoundary_of_isLower _ (isLower_of_mem_lowercase hw hy)
    simp [Char.isAlpha, isLower_of_mem_lowercase hw hx]

theorem words_number {w : List Char} (hne : w ≠ []) (hw : ∀ d ∈ w, d.isDigit) :
  words w = [w]
  := by
  apply words_of_isChain hne _ (isChain_number hw)
  exact fun d hd => isAlphanum_of_isDigit (hw d hd)

theorem words_cons_lowercase
    {c : Char} (hc : c.isAlpha) {w : List Char} (hw : ∀ d ∈ w, d.isAlpha) :
  words (c :: lowercase w) = [c :: lowercase w]
  := by
  apply words_of_isChain (by simp) _ (isChain_cons_lowercase hc hw)
  rw [List.forall_mem_cons]
  constructor
  · simp [Char.isAlphanum, hc]
  · exact fun d hd => isAlphanum_of_isLower (isLower_of_mem_lowercase hw hd)

/-- A capitalized word is a word. -/
theorem words_capitalize {w : List Char} (hw : IsWord w) :
  words (capitalize w) = [capitalize w]
  := by
  cases hw with
  | number hne hdigits =>
      rw [capitalize_number hdigits]
      apply words_number hne hdigits
  | letters hc hrest => apply words_cons_lowercase (by simpa using hc) hrest

/-- A word in lower case is a word. -/
theorem words_lowercase {w : List Char} (hw : IsWord w) :
  words (lowercase w) = [lowercase w]
  := by
  cases hw with
  | number hne hdigits =>
      rw [lowercase_number hdigits]
      apply words_number hne hdigits
  | letters hc hrest => apply words_cons_lowercase (by simpa using hc) hrest

/-! ### Words of spellings -/

/-- Whether a word is a single letter. -/
def isSingleLetter : List Char → Bool
  | [c] => c.isAlpha
  | _ => false

theorem isSingleLetter_singleton (c : Char) :
  isSingleLetter [c] = c.isAlpha
  := rfl

/-- Whether a word is a number. -/
def isNumber (w : List Char) : Bool :=
  w.all Char.isDigit

/-- Whether two words next to each other become one in a spelling. -/
def isFused (w v : List Char) : Bool :=
  isNumber w && isNumber v || isSingleLetter w && isSingleLetter v

theorem joinPascal_cons (w : List Char) (ws : List (List Char)) :
  joinPascal (w :: ws) = capitalize w ++ joinPascal ws
  := rfl

/-- A capitalized word does not start with a lower-case letter. -/
theorem startsLower_joinPascal {ws : List (List Char)} (hws : ∀ w ∈ ws, IsWord w) :
  startsLower (joinPascal ws) = false
  := by
  cases ws with
  | nil => rfl
  | cons w ws =>
      obtain ⟨c, rest, rfl⟩ := (hws w List.mem_cons_self).exists_eq_cons
      simp [joinPascal, capitalize]

/-- There is a boundary before a capitalized word behind a lower-case letter, behind a digit if
the word is no number, and behind a capital if the word is no single letter. -/
theorem words_append_capitalize
    {u : List Char} {x : Char} (hu : u.getLast? = some x) {v : List Char} (hv : IsWord v)
    (hx : x.isLower ∨ x.isDigit ∧ isNumber v = false ∨ x.isUpper ∧ isSingleLetter v = false)
    (rest : List Char) :
  words (u ++ (capitalize v ++ rest)) = words u ++ words (capitalize v ++ rest)
  := by
  cases hv with
  | number hne hdigits =>
      obtain ⟨c, more, rfl⟩ := List.exists_cons_of_ne_nil hne
      have hc := hdigits c List.mem_cons_self
      have hnumber : isNumber (c :: more) := List.all_eq_true.mpr hdigits
      apply words_append hu
      rw [toUpper_of_isDigit hc]
      rcases hx with hx | ⟨-, hx⟩ | ⟨hx, -⟩
      · simp [isBoundary, Char.isAlpha, hx, hc]
      · simp [hnumber] at hx
      · simp [isBoundary, Char.isAlpha, hx, hc]
  | @letters c more hc hmore =>
      apply words_append hu
      rcases hx with hx | ⟨hx, -⟩ | ⟨hx, hsingle⟩
      · simp [isBoundary, hx, hc]
      · simp [isBoundary, hx, hc]
      · cases more with
        | nil => simp [isSingleLetter, hc] at hsingle
        | cons d more =>
            have hd : d.isAlpha := hmore d (by simp)
            simp [isBoundary, hx, hc, hd]

theorem exists_getLast?
    {p : Char → Bool} {cs : List Char} (hne : cs ≠ []) (hcs : ∀ c ∈ cs, p c) :
  ∃ x, cs.getLast? = some x ∧ p x
  := by
  use cs.getLast hne, List.getLast?_eq_some_getLast hne
  apply hcs _ (List.getLast_mem hne)

/-- A word is not fused with the next one: its spelling stays apart. -/
theorem words_capitalize_append
    {w v : List Char} (hw : IsWord w) (hv : IsWord v) (h : isFused w v = false) (rest : List Char) :
  words (capitalize w ++ (capitalize v ++ rest)) = capitalize w :: words (capitalize v ++ rest)
  := by
  rw [isFused, Bool.or_eq_false_iff] at h
  suffices hlast : ∃ x, (capitalize w).getLast? = some x ∧
      (x.isLower ∨ x.isDigit ∧ isNumber v = false ∨ x.isUpper ∧ isSingleLetter v = false) by
    obtain ⟨x, hlast, hx⟩ := hlast
    rw [words_append_capitalize hlast hv hx, words_capitalize hw]
    rfl
  cases hw with
  | number hne hdigits =>
      have hnumber : isNumber w := List.all_eq_true.mpr hdigits
      rw [capitalize_number hdigits]
      obtain ⟨x, hlast, hx⟩ := exists_getLast? hne hdigits
      use x, hlast
      right
      left
      simpa [hx, hnumber] using h.1
  | @letters c rest hc hrest =>
      cases rest with
      | nil =>
          use c.toUpper, rfl
          right
          right
          simpa [hc, isSingleLetter_singleton] using h.2
      | cons d rest =>
          have hne : lowercase (d :: rest) ≠ [] := by simp [lowercase]
          obtain ⟨x, hlast, hx⟩ := exists_getLast? hne fun _ => isLower_of_mem_lowercase hrest
          use x
          constructor
          · exact (List.getLast?_cons_of_ne_nil hne).trans hlast
          · exact .inl hx

/-- A number is part of the word behind it if that starts with a number. -/
theorem words_number_append
    {w v : List Char} (hw : isNumber w) (hv : isNumber v) (hne : v ≠ []) {rest z : List Char}
    {zs : List (List Char)} (hwords : words (v ++ rest) = z :: zs) :
  words (w ++ (v ++ rest)) = (w ++ z) :: zs
  := by
  obtain ⟨c, more, rfl⟩ := List.exists_cons_of_ne_nil hne
  have hdigits : ∀ d ∈ w ++ [c], d.isDigit := by
    rw [List.forall_mem_append, List.forall_mem_singleton]
    exact ⟨List.all_eq_true.mp hw, List.all_eq_true.mp hv c List.mem_cons_self⟩
  apply words_append_of_isChain _ (isChain_number hdigits) hwords
  exact fun d hd => isAlphanum_of_isDigit (hdigits d hd)

/-- A capital is part of the word behind it if that starts with a single capital. -/
theorem words_capital_cons
    {x y : Char} (hx : x.isUpper) (hy : y.isUpper) {rest z : List Char}
    {zs : List (List Char)} (hrest : startsLower rest = false)
    (hwords : words (y :: rest) = z :: zs) :
  words (x :: y :: rest) = (x :: z) :: zs
  := by
  have hend : endsWord x (y :: rest) = false := by
    simp [endsWord, isBoundary_capitals hx hy, isAlphanum_of_isUpper hy, hrest]
  obtain ⟨_, _, _, _, -, hwords', hlonger⟩ := exists_words_cons (isAlphanum_of_isUpper hx) hend
  obtain ⟨rfl, rfl⟩ := List.cons.inj (hwords.symm.trans hwords')
  exact hlonger

theorem exists_of_isSingleLetter {w : List Char} (hw : isSingleLetter w) :
  ∃ c, w = [c] ∧ c.isAlpha
  := by
  match w with
  | [] => simp [isSingleLetter] at hw
  | [c] => exact ⟨c, rfl, hw⟩
  | _ :: _ :: _ => simp [isSingleLetter] at hw

/-- The words in the spelling of words: each is spelled for itself, but fused words are one. -/
theorem words_joinPascal_cons_cons
    {w v : List Char} {ws : List (List Char)} (hw : IsWord w) (hv : IsWord v)
    (hws : ∀ u ∈ ws, IsWord u) {z : List Char} {zs : List (List Char)}
    (hwords : words (joinPascal (v :: ws)) = z :: zs) :
  words (joinPascal (w :: v :: ws))
    = if isFused w v then (capitalize w ++ z) :: zs else capitalize w :: z :: zs
  := by
  rw [joinPascal_cons] at hwords
  rw [joinPascal_cons, joinPascal_cons]
  split
  · rename_i h
    rw [isFused, Bool.or_eq_true, Bool.and_eq_true, Bool.and_eq_true] at h
    rcases h with ⟨hw', hv'⟩ | ⟨hw', hv'⟩
    · obtain ⟨c, rest, rfl⟩ := hv.exists_eq_cons
      rw [capitalize_number (List.all_eq_true.mp hv')] at hwords ⊢
      rw [capitalize_number (List.all_eq_true.mp hw')]
      apply words_number_append hw' hv' (List.cons_ne_nil c rest) hwords
    · obtain ⟨c, rfl, hc⟩ := exists_of_isSingleLetter hw'
      obtain ⟨d, rfl, hd⟩ := exists_of_isSingleLetter hv'
      apply words_capital_cons _ _ (startsLower_joinPascal hws) hwords
      · simpa using hc
      · simpa using hd
  · rename_i h
    rw [words_capitalize_append hw hv (by simpa using h), hwords]

/-- The first word in a spelling starts with the first word that is spelled. -/
theorem exists_words_joinPascal :
  ∀ {w : List Char} {ws : List (List Char)}, IsWord w → (∀ u ∈ ws, IsWord u) →
    ∃ more zs, words (joinPascal (w :: ws)) = (capitalize w ++ more) :: zs
  | w, [], hw, _ => by
      use [], []
      simpa [joinPascal] using words_capitalize hw
  | w, v :: ws, hw, hws => by
      obtain ⟨hv, hws⟩ := List.forall_mem_cons.mp hws
      obtain ⟨more, zs, hwords⟩ := exists_words_joinPascal hv hws
      rw [words_joinPascal_cons_cons hw hv hws hwords]
      split
      · exact ⟨_, _, rfl⟩
      · use [], (capitalize v ++ more) :: zs
        simp

/-! ### Spelling in pascal case again -/

theorem isSingleLetter_of_isNumber {w : List Char} (hw : isNumber w) :
  isSingleLetter w = false
  := by
  match w with
  | [] => rfl
  | [c] =>
      have hc : c.isDigit := by simpa [isNumber] using hw
      rw [isSingleLetter_singleton, isAlpha_eq_not_isDigit (isAlphanum_of_isDigit hc), hc]
      rfl
  | _ :: _ :: _ => rfl

theorem isSingleLetter_capitalize (w : List Char) :
  isSingleLetter (capitalize w) = isSingleLetter w
  := by
  match w with
  | [] => rfl
  | [c] => simp [capitalize, isSingleLetter_singleton]
  | _ :: _ :: _ => rfl

/-- Two texts put together are a single letter only if one of them is empty. -/
theorem isSingleLetter_append {u v : List Char} (hu : u ≠ []) (hv : v ≠ []) :
  isSingleLetter (u ++ v) = false
  := by
  obtain ⟨c, u, rfl⟩ := List.exists_cons_of_ne_nil hu
  obtain ⟨d, v, rfl⟩ := List.exists_cons_of_ne_nil hv
  cases u with
  | nil => rfl
  | cons _ _ => rfl

/-- No two single letters are next to each other. -/
def LettersApart (ws : List (List Char)) : Prop :=
  ws.IsChain fun w v => ¬ (isSingleLetter w ∧ isSingleLetter v)

/-- Single letters that are fused lose a capital. -/
theorem joinPascal_ne_of_letters
    {c d : Char} (hd : d.isAlpha) (more more' : List Char) (zs : List (List Char)) :
  joinPascal ((c.toUpper :: d.toUpper :: more) :: zs) ≠ c.toUpper :: d.toUpper :: more'
  := by
  intro h
  have hcapital : d.toUpper.toLower = d.toUpper := by
    simp [joinPascal_cons, capitalize] at h
    simpa using h.1
  have hlower : d.toUpper.toLower.isLower := by simpa using hd
  simp [hcapital] at hlower

/-- The pascal-case spelling of words stays the same exactly if no two single letters are next
to each other. -/
theorem joinPascal_words_joinPascal_iff :
  ∀ {ws : List (List Char)}, (∀ w ∈ ws, IsWord w) →
    (joinPascal (words (joinPascal ws)) = joinPascal ws ↔ LettersApart ws)
  | [], _ => by simp [LettersApart, joinPascal, words, wordsFrom]
  | [w], hws => by
      have hw := hws w List.mem_cons_self
      have hword : joinPascal [w] = capitalize w := by simp [joinPascal]
      rw [hword, words_capitalize hw]
      simp [LettersApart, joinPascal, capitalize_capitalize]
  | w :: v :: ws, hws => by
      obtain ⟨hw, hws⟩ := List.forall_mem_cons.mp hws
      have ih := joinPascal_words_joinPascal_iff hws
      obtain ⟨hv, hws⟩ := List.forall_mem_cons.mp hws
      obtain ⟨more, zs, hwords⟩ := exists_words_joinPascal hv hws
      rw [hwords] at ih
      rw [words_joinPascal_cons_cons hw hv hws hwords, LettersApart, List.isChain_cons_cons,
        ← LettersApart, ← ih]
      split
      · rename_i h
        rw [isFused, Bool.or_eq_true, Bool.and_eq_true, Bool.and_eq_true] at h
        rcases h with ⟨hnumber, hnumber'⟩ | hletters
        · have hdigits := List.all_eq_true.mp hnumber
          have hdigits' := List.all_eq_true.mp hnumber'
          obtain ⟨c, rest, rfl⟩ := hv.exists_eq_cons
          simp only [isSingleLetter_of_isNumber hnumber, Bool.false_eq_true, false_and,
            not_false_eq_true, true_and]
          rw [joinPascal_cons, joinPascal_cons w, capitalize_number hdigits,
            capitalize_number hdigits', List.cons_append,
            capitalize_number_append hdigits (hdigits' c List.mem_cons_self), List.append_assoc,
            List.append_cancel_left_eq]
          exact Iff.rfl
        · obtain ⟨c, rfl, hc⟩ := exists_of_isSingleLetter hletters.1
          obtain ⟨d, rfl, hd⟩ := exists_of_isSingleLetter hletters.2
          simp only [hletters, and_self, not_true_eq_false, false_and, iff_false]
          apply joinPascal_ne_of_letters hd
      · rename_i h
        have hletters : ¬ (isSingleLetter w ∧ isSingleLetter v) := by
          intro hletters
          simp [isFused, hletters] at h
        rw [joinPascal_cons, joinPascal_cons w, capitalize_capitalize, List.append_cancel_left_eq]
        simp only [hletters, not_false_eq_true, true_and]

/-- In a spelling no two single letters are next to each other. -/
theorem lettersApart_words_joinPascal :
  ∀ {ws : List (List Char)}, (∀ w ∈ ws, IsWord w) → LettersApart (words (joinPascal ws))
  | [], _ => List.IsChain.nil
  | [w], hws => by
      have hword : joinPascal [w] = capitalize w := by simp [joinPascal]
      rw [hword, words_capitalize (hws w List.mem_cons_self)]
      apply List.IsChain.singleton
  | w :: v :: ws, hws => by
      obtain ⟨hw, hws⟩ := List.forall_mem_cons.mp hws
      have ih := lettersApart_words_joinPascal hws
      obtain ⟨hv, hws⟩ := List.forall_mem_cons.mp hws
      obtain ⟨more, zs, hwords⟩ := exists_words_joinPascal hv hws
      rw [hwords] at ih
      rw [words_joinPascal_cons_cons hw hv hws hwords]
      split
      · rw [LettersApart, List.isChain_cons] at ih ⊢
        refine ⟨?_, ih.2⟩
        intro z _ hletters
        obtain ⟨c, rest, rfl⟩ := hw.exists_eq_cons
        obtain ⟨d, rest', rfl⟩ := hv.exists_eq_cons
        rw [isSingleLetter_append (by simp [capitalize]) (by simp [capitalize])] at hletters
        simp at hletters
      · rename_i h
        rw [LettersApart, List.isChain_cons_cons]
        refine ⟨?_, ih⟩
        rintro ⟨hletter, hletter'⟩
        obtain rfl : more = [] := by
          by_contra hne
          obtain ⟨d, rest, rfl⟩ := hv.exists_eq_cons
          rw [isSingleLetter_append (by simp [capitalize]) hne] at hletter'
          simp at hletter'
        rw [List.append_nil, isSingleLetter_capitalize] at hletter'
        rw [isSingleLetter_capitalize] at hletter
        simp [isFused, hletter, hletter'] at h

/-! ### Spelling in camel case again -/

/-- The words in the camel-case spelling of words are those in the pascal-case spelling of all
but the first, and the first one in lower case. The first two may be one number. -/
theorem words_lowercase_append
    {w : List Char} {ws : List (List Char)} (hw : IsWord w) (hws : ∀ v ∈ ws, IsWord v) :
  words (lowercase w ++ joinPascal ws) = lowercase w :: words (joinPascal ws) ∨
    ∃ c z zs, isNumber w ∧ c.isDigit ∧ words (joinPascal ws) = (c :: z) :: zs ∧
      words (lowercase w ++ joinPascal ws) = (w ++ c :: z) :: zs
  := by
  cases ws with
  | nil =>
      left
      rw [joinPascal, List.flatMap_nil, List.append_nil, words_lowercase hw]
      rfl
  | cons v ws =>
      obtain ⟨hv, hws⟩ := List.forall_mem_cons.mp hws
      by_cases hnumbers : isNumber w ∧ isNumber v
      · right
        obtain ⟨more, zs, hwords⟩ := exists_words_joinPascal hv hws
        obtain ⟨c, rest, rfl⟩ := hv.exists_eq_cons
        have hdigits := List.all_eq_true.mp hnumbers.2
        rw [capitalize_number hdigits] at hwords
        use c, rest ++ more, zs, hnumbers.1, hdigits c List.mem_cons_self, hwords
        rw [joinPascal_cons, capitalize_number hdigits] at hwords ⊢
        rw [lowercase_number (List.all_eq_true.mp hnumbers.1)]
        apply words_number_append hnumbers.1 hnumbers.2 (List.cons_ne_nil c rest) hwords
      · left
        suffices hlast : ∃ x, (lowercase w).getLast? = some x ∧
            (x.isLower ∨ x.isDigit ∧ isNumber v = false) by
          obtain ⟨x, hlast, hx⟩ := hlast
          rw [joinPascal_cons, words_append_capitalize hlast hv (by tauto), words_lowercase hw]
          rfl
        cases hw with
        | number hne hdigits =>
            have hnumber : isNumber w := List.all_eq_true.mpr hdigits
            obtain ⟨x, hlast, hx⟩ := exists_getLast? hne hdigits
            use x
            rw [lowercase_number hdigits]
            exact ⟨hlast, .inr ⟨hx, by simpa [hnumber] using hnumbers⟩⟩
        | @letters c rest hc hrest =>
            have hne : lowercase (c :: rest) ≠ [] := by simp [lowercase]
            have hletters : ∀ d ∈ c :: rest, d.isAlpha := List.forall_mem_cons.mpr ⟨hc, hrest⟩
            obtain ⟨x, hlast, hx⟩ := exists_getLast? hne fun _ => isLower_of_mem_lowercase hletters
            exact ⟨x, hlast, .inl hx⟩

theorem joinCamel_words_lowercase_append
    {w : List Char} {ws : List (List Char)} (hw : IsWord w) (hws : ∀ v ∈ ws, IsWord v) :
  joinCamel (words (lowercase w ++ joinPascal ws))
    = lowercase w ++ joinPascal (words (joinPascal ws))
  := by
  rcases words_lowercase_append hw hws with hwords | ⟨c, z, zs, hnumber, hc, hwords, hwords'⟩
  · rw [hwords, joinCamel]
    simp [lowercase]
  · rw [hwords, hwords', joinCamel, joinPascal_cons, lowercase_append,
      ← List.append_assoc]
    simp [lowercase, capitalize, toUpper_of_isDigit hc, toLower_of_isDigit hc]

/-- The camel-case spelling of words stays the same exactly if no two single letters are next
to each other behind the first word. -/
theorem joinCamel_words_joinCamel_iff {ws : List (List Char)} (hws : ∀ w ∈ ws, IsWord w) :
  joinCamel (words (joinCamel ws)) = joinCamel ws ↔ LettersApart ws.tail
  := by
  cases ws with
  | nil => simp [joinCamel, words, wordsFrom, LettersApart]
  | cons w ws =>
      obtain ⟨hw, hws⟩ := List.forall_mem_cons.mp hws
      rw [joinCamel, joinCamel_words_lowercase_append hw hws, List.append_cancel_left_eq,
        List.tail_cons]
      apply joinPascal_words_joinPascal_iff hws

/-- In a spelling in camel case no two single letters are next to each other behind the first
word. -/
theorem lettersApart_words_joinCamel {ws : List (List Char)} (hws : ∀ w ∈ ws, IsWord w) :
  LettersApart (words (joinCamel ws)).tail
  := by
  cases ws with
  | nil => apply List.IsChain.nil
  | cons w ws =>
      obtain ⟨hw, hws⟩ := List.forall_mem_cons.mp hws
      have hpascal := lettersApart_words_joinPascal hws
      rw [joinCamel]
      rcases words_lowercase_append hw hws with hwords | ⟨c, z, zs, -, -, hwords, hwords'⟩
      · rw [hwords]
        apply hpascal
      · rw [hwords] at hpascal
        rw [hwords']
        apply hpascal.tail

/-- Spelling a name again in pascal case changes nothing exactly if the name has no two single
letters next to each other. In camel case the first word does not count. Spelling a name a
third time changes nothing at all. -/
theorem spelling_idempotent_iff (t : String) :
  (pascal (pascal t) = pascal t ↔
      (words t.toList).IsChain fun v w => ¬ (isSingleLetter v ∧ isSingleLetter w)) ∧
    (camel (camel t) = camel t ↔
      (words t.toList).tail.IsChain fun v w => ¬ (isSingleLetter v ∧ isSingleLetter w)) ∧
    pascal (pascal (pascal t)) = pascal (pascal t) ∧
    camel (camel (camel t)) = camel (camel t)
  := by
  have hpascal : ∀ s, pascal (pascal s) = pascal s ↔ LettersApart (words s.toList) := by
    intro s
    rw [pascal, pascal, String.toList_ofList, String.ofList_inj]
    apply joinPascal_words_joinPascal_iff (splits_words s.toList).isWord
  have hcamel : ∀ s, camel (camel s) = camel s ↔ LettersApart (words s.toList).tail := by
    intro s
    rw [camel, camel, String.toList_ofList, String.ofList_inj]
    apply joinCamel_words_joinCamel_iff (splits_words s.toList).isWord
  refine ⟨hpascal t, hcamel t, ?_, ?_⟩
  · rw [hpascal, pascal, String.toList_ofList]
    apply lettersApart_words_joinPascal (splits_words t.toList).isWord
  · rw [hcamel, camel, String.toList_ofList]
    apply lettersApart_words_joinCamel (splits_words t.toList).isWord

end ElmSchema.Name
