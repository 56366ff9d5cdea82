import ElmSchema.Proofs.Name.Respelling

/-!
# Styles of spelling

A list of words can be spelled in several styles. Some keep the words apart by a separator,
which may be repeated and may also stand before the first word and behind the last one. The
others join the words and mark their beginnings by capitals. Whatever the style, the name that
is spelled has the same pascal-case and the same camel-case spelling, as long as no two single
letters are next to each other.

A separator cuts a text, so the words of a separated spelling are the words that were spelled.
In a joined spelling numbers next to each other become one word, but the spelling of that word
is the same.
-/

namespace ElmSchema.Name

/-! ### Styles -/

/-- Whether a word can be spelled in each style: it is a run of lower-case letters, or a run of
digits. -/
def isRun (w : List Char) : Bool :=
  !w.isEmpty && (w.all Char.isLower || w.all Char.isDigit)

/-- A style of spelling a list of words. -/
inductive Style where
  | snake
  | kebab
  | spaced
  | screaming
  | camel
  | pascal
deriving DecidableEq, Repr

/-- A word in upper case. -/
def uppercase (word : List Char) : List Char :=
  word.map Char.toUpper

/-- A word with its first letter in upper case and all else as it is. -/
def raise : List Char → List Char
  | [] => []
  | c :: rest => c.toUpper :: rest

/-- The spelling of words in a style. -/
def Style.spell : Style → List (List Char) → List Char
  | .snake, ws => ['_'].intercalate ws
  | .kebab, ws => ['-'].intercalate ws
  | .spaced, ws => [' '].intercalate ws
  | .screaming, ws => ['_'].intercalate (ws.map uppercase)
  | .camel, [] => []
  | .camel, w :: ws => w ++ ws.flatMap raise
  | .pascal, ws => ws.flatMap raise

/-- A text that keeps words apart: there is a separator between any two of them. Separators
may be repeated, and may stand before the first word and behind the last one. -/
inductive Apart (separator : Char) : List (List Char) → List Char → Prop where
  | nil : Apart separator [] []
  | last (w : List Char) : Apart separator [w] w
  | word (w : List Char) {ws : List (List Char)} {t : List Char} :
      Apart separator ws t → Apart separator (w :: ws) (w ++ separator :: t)
  | gap {ws : List (List Char)} {t : List Char} :
      Apart separator ws t → Apart separator ws (separator :: t)

/-- A text spells words in a style. -/
def Style.Spells : Style → List (List Char) → List Char → Prop
  | .snake, ws, t => Apart '_' ws t
  | .kebab, ws, t => Apart '-' ws t
  | .spaced, ws, t => Apart ' ' ws t
  | .screaming, ws, t => Apart '_' (ws.map uppercase) t
  | .camel, ws, t => t = Style.camel.spell ws
  | .pascal, ws, t => t = Style.pascal.spell ws

/-- Words are kept apart by one separator between any two of them. -/
theorem apart_intercalate (separator : Char) :
  ∀ ws : List (List Char), Apart separator ws ([separator].intercalate ws)
  | [] => .nil
  | [w] => by
      rw [List.intercalate_singleton]
      apply Apart.last
  | w :: v :: ws => by
      rw [List.intercalate_cons_cons, List.append_assoc, List.singleton_append]
      apply Apart.word w (apart_intercalate separator (v :: ws))

theorem Style.spells_spell (style : Style) (ws : List (List Char)) :
  style.Spells ws (style.spell ws)
  := by
  cases style with
  | snake => apply apart_intercalate
  | kebab => apply apart_intercalate
  | spaced => apply apart_intercalate
  | screaming => apply apart_intercalate
  | camel => rfl
  | pascal => rfl

/-! ### Runs -/

theorem isAlpha_of_isLower {c : Char} (h : c.isLower) :
  c.isAlpha
  := by
  simp [Char.isAlpha, h]

theorem isRun_cases {w : List Char} (hw : isRun w) :
  w ≠ [] ∧ ((∀ c ∈ w, c.isLower) ∨ ∀ c ∈ w, c.isDigit)
  := by
  simpa [isRun] using hw

theorem isWord_of_isRun {w : List Char} (hw : isRun w) :
  IsWord w
  := by
  rcases isRun_cases hw with ⟨hne, hlower | hdigits⟩
  · obtain ⟨c, rest, rfl⟩ := List.exists_cons_of_ne_nil hne
    rw [List.forall_mem_cons] at hlower
    apply IsWord.letters (isAlpha_of_isLower hlower.1)
    exact fun d hd => isAlpha_of_isLower (hlower.2 d hd)
  · apply IsWord.number hne hdigits

theorem lowercase_of_isRun {w : List Char} (hw : isRun w) :
  lowercase w = w
  := by
  rcases isRun_cases hw with ⟨-, hlower | hdigits⟩
  · have hsame : ∀ c ∈ w, c.toLower = c := by
      intro c hc
      apply Char.toLower_eq_of_not_isUpper
      simp [not_of_isLower (hlower c hc)]
    rw [lowercase, List.map_congr_left hsame, List.map_id']
  · apply lowercase_number hdigits

theorem capitalize_of_isRun {w : List Char} (hw : isRun w) :
  capitalize w = raise w
  := by
  have hlower := lowercase_of_isRun hw
  cases w with
  | nil => rfl
  | cons c rest =>
      obtain ⟨-, hrest⟩ := List.cons.inj hlower
      rw [capitalize, raise, hrest]

theorem joinPascal_eq_spell {ws : List (List Char)} (hws : ∀ w ∈ ws, isRun w) :
  joinPascal ws = Style.pascal.spell ws
  := by
  apply List.flatMap_congr
  exact fun w hw => capitalize_of_isRun (hws w hw)

theorem joinCamel_eq_spell {ws : List (List Char)} (hws : ∀ w ∈ ws, isRun w) :
  joinCamel ws = Style.camel.spell ws
  := by
  cases ws with
  | nil => rfl
  | cons w ws =>
      obtain ⟨hw, hws⟩ := List.forall_mem_cons.mp hws
      rw [joinCamel, lowercase_of_isRun hw, joinPascal_eq_spell hws]
      rfl

/-! ### Separated spellings -/

/-- What is neither a letter nor a digit cuts a text. -/
theorem words_append_separator
    {separator : Char} (h : separator.isAlphanum = false) (u t : List Char) :
  words (u ++ separator :: t) = words u ++ words t
  := by
  have hcut : words (separator :: t) = words t := words_cons_of_not_isAlphanum h
  rw [← hcut]
  apply words_append_of_endsWord
  intro init c rest _
  match rest with
  | [] => simp [endsWord, h]
  | [x] =>
      have hlower := (not_isAlphanum_iff.mp h).2.1
      simp [endsWord, isBoundary, startsLower, hlower]
  | _ :: _ :: _ => rfl

/-- Words that are kept apart are the words of the text. -/
theorem Apart.words_eq
    {separator : Char} (hseparator : separator.isAlphanum = false) {ws : List (List Char)}
    {t : List Char} (h : Apart separator ws t) (hws : ∀ w ∈ ws, words w = [w]) :
  words t = ws
  := by
  induction h with
  | nil => rfl
  | last w => apply hws w List.mem_cons_self
  | word w _ ih =>
      rw [List.forall_mem_cons] at hws
      rw [words_append_separator hseparator, hws.1, ih hws.2, List.singleton_append]
  | gap _ ih => rw [words_cons_of_not_isAlphanum hseparator, ih hws]

theorem words_of_isRun {w : List Char} (hw : isRun w) :
  words w = [w]
  := by
  have hwords := words_lowercase (isWord_of_isRun hw)
  rwa [lowercase_of_isRun hw] at hwords

/-- A run of capitals is a word. -/
theorem words_capitals :
  ∀ {cs : List Char}, cs ≠ [] → (∀ c ∈ cs, c.isUpper) → words cs = [cs]
  | [], hne, _ => absurd rfl hne
  | [c], _, hcs => words_cons_of_endsWord (isAlphanum_of_isUpper (hcs c List.mem_cons_self)) rfl
  | c :: d :: rest, _, hcs => by
      obtain ⟨hc, hcs⟩ := List.forall_mem_cons.mp hcs
      have ih := words_capitals (List.cons_ne_nil d rest) hcs
      obtain ⟨hd, hrest⟩ := List.forall_mem_cons.mp hcs
      apply words_capital_cons hc hd _ ih
      cases rest with
      | nil => rfl
      | cons e rest => exact (not_of_isUpper (hrest e List.mem_cons_self)).1

theorem words_uppercase {w : List Char} (hw : isRun w) :
  words (uppercase w) = [uppercase w]
  := by
  rcases isRun_cases hw with ⟨hne, hlower | hdigits⟩
  · apply words_capitals
    · simpa [uppercase] using hne
    · intro c hc
      obtain ⟨d, hd, rfl⟩ := List.mem_map.mp hc
      simp [isAlpha_of_isLower (hlower d hd)]
  · have hsame : uppercase w = w := by
      rw [uppercase, List.map_congr_left fun c hc => toUpper_of_isDigit (hdigits c hc),
        List.map_id']
    rw [hsame, words_number hne hdigits]

theorem capitalize_uppercase (w : List Char) :
  capitalize (uppercase w) = capitalize w
  := by
  cases w with
  | nil => rfl
  | cons c rest => simp [capitalize, uppercase]

theorem joinPascal_map_uppercase (ws : List (List Char)) :
  joinPascal (ws.map uppercase) = joinPascal ws
  := by
  rw [joinPascal, List.flatMap_map]
  apply List.flatMap_congr
  exact fun w _ => capitalize_uppercase w

theorem joinCamel_map_uppercase (ws : List (List Char)) :
  joinCamel (ws.map uppercase) = joinCamel ws
  := by
  cases ws with
  | nil => rfl
  | cons w ws =>
      have hlower : lowercase (uppercase w) = lowercase w := by simp [lowercase, uppercase]
      rw [List.map_cons, joinCamel, joinCamel, hlower, joinPascal_map_uppercase]

/-! ### Joined spellings -/

theorem capitalize_lowercase (w : List Char) :
  capitalize (lowercase w) = capitalize w
  := by
  cases w with
  | nil => rfl
  | cons c rest => simp [capitalize, lowercase]

/-- A text that starts with a digit has no capital to lose. -/
theorem capitalize_eq_lowercase {c : Char} (hc : c.isDigit) (rest : List Char) :
  capitalize (c :: rest) = lowercase (c :: rest)
  := by
  simp [capitalize, lowercase, toUpper_of_isDigit hc, toLower_of_isDigit hc]

/-- The pascal-case spelling can be read off the camel-case one. -/
theorem joinPascal_words_joinCamel
    {ws : List (List Char)} (hws : ∀ w ∈ ws, IsWord w) (hletters : LettersApart ws) :
  joinPascal (words (joinCamel ws)) = joinPascal ws
  := by
  cases ws with
  | nil => rfl
  | cons w ws =>
      obtain ⟨hw, hws⟩ := List.forall_mem_cons.mp hws
      have hsame := (joinPascal_words_joinPascal_iff hws).mpr hletters.tail
      rw [joinCamel]
      rcases words_lowercase_append hw hws with hwords | ⟨c, z, zs, hnumber, hc, hwords, hwords'⟩
      · rw [hwords, joinPascal_cons, capitalize_lowercase, hsame]
        rfl
      · have hdigits := List.all_eq_true.mp hnumber
        rw [hwords, joinPascal_cons] at hsame
        rw [hwords', joinPascal_cons, capitalize_number_append hdigits hc, List.append_assoc, hsame,
          joinPascal_cons, capitalize_number hdigits]

/-- The camel-case spelling can be read off the pascal-case one. -/
theorem joinCamel_words_joinPascal
    {ws : List (List Char)} (hws : ∀ w ∈ ws, IsWord w) (hletters : LettersApart ws) :
  joinCamel (words (joinPascal ws)) = joinCamel ws
  := by
  match ws with
  | [] => rfl
  | [w] =>
      have hword : joinPascal [w] = capitalize w := by simp [joinPascal]
      rw [hword, words_capitalize (hws w List.mem_cons_self), joinCamel, lowercase_capitalize]
      rfl
  | w :: v :: ws =>
      obtain ⟨hw, hws⟩ := List.forall_mem_cons.mp hws
      have hsame := (joinPascal_words_joinPascal_iff hws).mpr hletters.tail
      obtain ⟨hv, hws⟩ := List.forall_mem_cons.mp hws
      obtain ⟨more, zs, hwords⟩ := exists_words_joinPascal hv hws
      rw [hwords] at hsame
      rw [words_joinPascal_cons_cons hw hv hws hwords]
      split
      · rename_i h
        -- Single letters are apart, so the first two words are one number.
        have hnumber : isNumber v := by
          have hapart := (List.isChain_cons_cons.mp hletters).1
          simp only [isFused, Bool.or_eq_true, Bool.and_eq_true] at h
          tauto
        obtain ⟨c, rest, rfl⟩ := hv.exists_eq_cons
        have hdigits := List.all_eq_true.mp hnumber
        have hc := hdigits c List.mem_cons_self
        rw [capitalize_number hdigits, List.cons_append, joinPascal_cons,
          capitalize_eq_lowercase hc] at hsame
        rw [joinCamel, joinCamel, capitalize_number hdigits, List.cons_append, lowercase_append,
          lowercase_capitalize, List.append_assoc, hsame]
      · rw [joinCamel, joinCamel, lowercase_capitalize, hsame]

/-! ### Conversions of spellings -/

/-- The words of a spelling have the pascal-case and the camel-case spelling of the words that
are spelled. -/
theorem Style.Spells.join_words
    {style : Style} {ws : List (List Char)} {t : List Char} (h : style.Spells ws t)
    (hws : ∀ w ∈ ws, isRun w) (hletters : LettersApart ws) :
  joinPascal (words t) = joinPascal ws ∧ joinCamel (words t) = joinCamel ws
  := by
  have hruns : ∀ w ∈ ws, words w = [w] := fun w hw => words_of_isRun (hws w hw)
  have hwords : ∀ w ∈ ws, IsWord w := fun w hw => isWord_of_isRun (hws w hw)
  cases style with
  | snake => simp only [Apart.words_eq rfl h hruns, and_self]
  | kebab => simp only [Apart.words_eq rfl h hruns, and_self]
  | spaced => simp only [Apart.words_eq rfl h hruns, and_self]
  | screaming =>
      have hcapitals : ∀ w ∈ ws.map uppercase, words w = [w] := by
        rw [List.forall_mem_map]
        exact fun w hw => words_uppercase (hws w hw)
      rw [Apart.words_eq rfl h hcapitals]
      exact ⟨joinPascal_map_uppercase ws, joinCamel_map_uppercase ws⟩
  | camel =>
      obtain rfl : t = joinCamel ws := h.trans (joinCamel_eq_spell hws).symm
      use joinPascal_words_joinCamel hwords hletters
      apply (joinCamel_words_joinCamel_iff hwords).mpr hletters.tail
  | pascal =>
      obtain rfl : t = joinPascal ws := h.trans (joinPascal_eq_spell hws).symm
      use (joinPascal_words_joinPascal_iff hwords).mpr hletters
      apply joinCamel_words_joinPascal hwords hletters

/-- All spellings of words convert alike. Whatever the style in which words are spelled, and
however often separators are repeated, the conversions of the spelling to pascal case and to
camel case are the spellings of the words in these styles. -/
theorem spellings_convert_alike
    {ws : List (List Char)} (hws : ∀ w ∈ ws, isRun w)
    (hletters : ws.IsChain fun v w => ¬ (isSingleLetter v ∧ isSingleLetter w)) (style : Style) :
  style.Spells ws (style.spell ws) ∧
    ∀ t, style.Spells ws t →
      pascal (String.ofList t) = String.ofList (Style.pascal.spell ws) ∧
        camel (String.ofList t) = String.ofList (Style.camel.spell ws)
  := by
  use style.spells_spell ws
  intro t ht
  obtain ⟨hpascal, hcamel⟩ := ht.join_words hws hletters
  rw [pascal, camel, String.toList_ofList, hpascal, hcamel, joinPascal_eq_spell hws,
    joinCamel_eq_spell hws]
  exact ⟨rfl, rfl⟩

/-- Words with single letters on both sides of longer words, and with numbers next to each
other. -/
def serverWords : List (List Char) :=
  ["x".toList, "12".toList, "34".toList, "http".toList, "a".toList, "server".toList]

/-- A spelling in capitals with separators at both ends, and the spelling that it converts to. -/
theorem spellings_convert_alike_server :
  (∀ w ∈ serverWords, isRun w) ∧
    (serverWords.IsChain fun v w => ¬ (isSingleLetter v ∧ isSingleLetter w)) ∧
    Style.screaming.Spells serverWords "_X_12__34_HTTP_A_SERVER__".toList ∧
    pascal "_X_12__34_HTTP_A_SERVER__" = "X1234HttpAServer" ∧
    camel "X1234HttpAServer" = "x1234HttpAServer"
  := by
  have hws : ∀ w ∈ serverWords, isRun w := by decide
  have hletters : serverWords.IsChain fun v w => ¬ (isSingleLetter v ∧ isSingleLetter w) := by
    decide
  have hspells : Style.screaming.Spells serverWords "_X_12__34_HTTP_A_SERVER__".toList :=
    .gap (.word _ (.word _ (.gap (.word _ (.word _ (.word _ (.word _ (.gap .nil))))))))
  obtain ⟨hpascal, -⟩ := (spellings_convert_alike hws hletters .screaming).2 _ hspells
  obtain ⟨-, hcamel⟩ := (spellings_convert_alike hws hletters .pascal).2 _ rfl
  exact ⟨hws, hletters, hspells, hpascal, hcamel⟩

end ElmSchema.Name
