import ElmSchema.Proofs.Name.Letters
import Mathlib

/-!
# Boundaries of words

Where the words of a name end can be told from the characters around. Between two letters or
digits there is a boundary where a digit and a letter meet, where a capital follows a
lower-case letter, and before a capital that follows another one and has a lower-case letter
behind it. The words of a text are the pieces that are left when the text is cut at all
boundaries and at all characters that are neither letters nor digits, which are dropped. Put
together, the words are the letters and digits of the text.

The lemmas about the case of letters, here and in the modules that build on this one, are those
that only the import of the whole library brings.

`Splits` states how a text is split at its boundaries, one character at a time. What is said
about the words of a text is proved by induction on it.
-/

namespace ElmSchema.Name

/-! ### Boundaries -/

/-- Whether there is a boundary between the letters or digits `x` and `y`, with `after` behind
`y`. -/
def isBoundary (x y : Char) (after : List Char) : Bool :=
  x.isDigit && y.isAlpha || x.isAlpha && y.isDigit || x.isLower && y.isUpper ||
    x.isUpper && y.isUpper && startsLower after

/-- Whether a word that has come to the letter or digit `x` ends there. -/
def endsWord (x : Char) : List Char → Bool
  | [] => true
  | y :: after => !y.isAlphanum || isBoundary x y after

/-- A text split at its boundaries into words. -/
inductive Splits : List Char → List (List Char) → Prop where
  | nil : Splits [] []
  /-- What is neither a letter nor a digit is dropped. -/
  | drop {x : Char} {rest : List Char} {ws : List (List Char)} :
      x.isAlphanum = false → Splits rest ws → Splits (x :: rest) ws
  /-- A letter or digit is a word if a word ends there and none goes on to it. -/
  | single {x : Char} {rest : List Char} {ws : List (List Char)} :
      x.isAlphanum → endsWord x rest → Splits rest ws → Splits (x :: rest) ([x] :: ws)
  /-- Two letters or digits without a boundary between them are in one word. -/
  | join {x y : Char} {after w : List Char} {ws : List (List Char)} :
      x.isAlphanum → y.isAlphanum → isBoundary x y after = false →
        Splits (y :: after) ((y :: w) :: ws) → Splits (x :: y :: after) ((x :: y :: w) :: ws)

/-! ### Lengths of words -/

@[simp]
theorem startsLower_cons (c : Char) (cs : List Char) :
  startsLower (c :: cs) = c.isLower
  := rfl

theorem wordLength_of_not_isAlphanum {x : Char} {rest : List Char} (hx : x.isAlphanum = false) :
  wordLength (x :: rest) = 0
  := by
  obtain ⟨hupper, hlower, hdigit⟩ := not_isAlphanum_iff.mp hx
  simp [wordLength, hupper, hlower, hdigit]

/-- The first of two capitals is a word if the second one goes on with a lower-case letter. -/
theorem wordLength_capitals {x y : Char} {after : List Char} (hx : x.isUpper) (hy : y.isUpper) :
  wordLength (x :: y :: after) = if startsLower after then 1 else wordLength (y :: after) + 1
  := by
  have hrun : after.takeWhile Char.isUpper = [] → after.dropWhile Char.isUpper = after := by
    intro hnone
    simpa [hnone] using List.takeWhile_append_dropWhile (p := Char.isUpper) (l := after)
  cases hafter : startsLower after with
  | true =>
      have hnone : after.takeWhile Char.isUpper = [] := by
        cases after with
        | nil => rfl
        | cons z after => simp [not_of_isLower (c := z) hafter]
      simp [wordLength, hx, hy, hnone, hrun hnone, hafter]
  | false =>
      have hsome : startsLower (after.dropWhile Char.isUpper) →
          (after.takeWhile Char.isUpper).length ≠ 0 := by
        intro hlower hnone
        simp [hrun (List.eq_nil_of_length_eq_zero hnone), hafter] at hlower
      simp only [wordLength, hx, hy, if_true, List.takeWhile_cons, List.dropWhile_cons,
        List.length_cons]
      grind

/-- The word at the start of a text is a single letter or digit if it ends there. Otherwise it
is one longer than the word behind its first character. -/
theorem wordLength_cons {x : Char} (hx : x.isAlphanum) (rest : List Char) :
  wordLength (x :: rest) = if endsWord x rest then 1 else wordLength rest + 1
  := by
  cases rest with
  | nil =>
      rcases isAlphanum_cases hx with hx | hx | hx <;>
        simp [wordLength, startsLower, endsWord, hx]
  | cons y after =>
      cases hy : y.isAlphanum with
      | false =>
          have hend : endsWord x (y :: after) := by simp [endsWord, hy]
          have hy := not_isAlphanum_iff.mp hy
          rcases isAlphanum_cases hx with hx | hx | hx <;> simp [wordLength, hend, hx, hy]
      | true =>
          -- Only between two capitals does it matter what comes next.
          rcases isAlphanum_cases hx with hx | hx | hx <;>
            rcases isAlphanum_cases hy with hy' | hy' | hy'
          · simp [wordLength_capitals, endsWord, isBoundary, Char.isAlpha, hx, hy, hy']
          all_goals simp [wordLength, endsWord, isBoundary, Char.isAlpha, hx, hy, hy', Nat.add_comm]

theorem exists_of_not_endsWord {x : Char} {rest : List Char} (h : endsWord x rest = false) :
  ∃ y after, rest = y :: after ∧ y.isAlphanum ∧ isBoundary x y after = false
  := by
  cases rest with
  | nil => simp [endsWord] at h
  | cons y after =>
      use y, after, rfl
      simpa [endsWord] using h

theorem exists_wordLength_eq_succ {x : Char} {rest : List Char} (hx : x.isAlphanum) :
  ∃ n, wordLength (x :: rest) = n + 1
  := by
  rw [wordLength_cons hx rest]
  split
  · use 0
  · use wordLength rest

/-! ### Words -/

theorem wordsFrom_eq_words_drop :
  ∀ (skip : Nat) (cs : List Char), wordsFrom skip cs = words (cs.drop skip)
  | 0, _ => rfl
  | _ + 1, [] => rfl
  | skip + 1, _ :: rest => wordsFrom_eq_words_drop skip rest

theorem words_of_wordLength_eq_succ
    {x : Char} {rest : List Char} {n : Nat} (h : wordLength (x :: rest) = n + 1) :
  words (x :: rest) = (x :: rest.take n) :: words (rest.drop n)
  := by
  rw [words, wordsFrom, h, ← wordsFrom_eq_words_drop]
  rfl

/-- What is neither a letter nor a digit is in no word. -/
theorem words_cons_of_not_isAlphanum {x : Char} {rest : List Char} (hx : x.isAlphanum = false) :
  words (x :: rest) = words rest
  := by
  rw [words, wordsFrom, wordLength_of_not_isAlphanum hx]
  rfl

/-- A letter or digit is a word if a word starts and ends there. -/
theorem words_cons_of_endsWord
    {x : Char} {rest : List Char} (hx : x.isAlphanum) (hend : endsWord x rest) :
  words (x :: rest) = [x] :: words rest
  := by
  have hlength := wordLength_cons hx rest
  rw [hend, if_pos rfl] at hlength
  rw [words_of_wordLength_eq_succ hlength]
  rfl

/-- A letter or digit where no word ends is in the word behind it. -/
theorem exists_words_cons
    {x : Char} {rest : List Char} (hx : x.isAlphanum) (hend : endsWord x rest = false) :
  ∃ y after w ws, rest = y :: after ∧ words rest = (y :: w) :: ws ∧
    words (x :: rest) = (x :: y :: w) :: ws
  := by
  obtain ⟨y, after, rfl, hy, -⟩ := exists_of_not_endsWord hend
  obtain ⟨n, hn⟩ := exists_wordLength_eq_succ hy
  have hlength := wordLength_cons hx (y :: after)
  rw [hend, if_neg (by simp), hn] at hlength
  use y, after, after.take n, words (after.drop n), rfl, words_of_wordLength_eq_succ hn
  rw [words_of_wordLength_eq_succ hlength]
  rfl

/-- The words of a text are what it is split into at its boundaries. -/
theorem splits_words (cs : List Char) :
  Splits cs (words cs)
  := by
  induction cs with
  | nil => apply Splits.nil
  | cons x rest ih =>
      cases hx : x.isAlphanum with
      | false =>
          rw [words_cons_of_not_isAlphanum hx]
          apply Splits.drop hx ih
      | true =>
          cases hend : endsWord x rest with
          | true =>
              rw [words_cons_of_endsWord hx hend]
              apply Splits.single hx hend ih
          | false =>
              obtain ⟨y, after, w, ws, rfl, hwords, hlonger⟩ := exists_words_cons hx hend
              obtain ⟨_, _, ⟨⟩, hy, hboundary⟩ := exists_of_not_endsWord hend
              rw [hwords] at ih
              rw [hlonger]
              apply Splits.join hx hy hboundary ih

/-- No word is empty. -/
theorem Splits.nil_not_mem {cs : List Char} {ws : List (List Char)} (h : Splits cs ws) :
  [] ∉ ws
  := by
  induction h with
  | nil => simp
  | drop _ _ ih => apply ih
  | single _ _ _ ih => simpa using ih
  | join _ _ _ _ ih => simpa using ih

/-- The words, put together, are the letters and digits of the text. -/
theorem Splits.flatten_eq {cs : List Char} {ws : List (List Char)} (h : Splits cs ws) :
  ws.flatten = cs.filter Char.isAlphanum
  := by
  induction h with
  | nil => rfl
  | drop hx _ ih => rw [ih, List.filter_cons_of_neg (by simp [hx])]
  | single hx _ _ ih =>
      rw [List.filter_cons_of_pos hx, ← ih, List.flatten_cons, List.singleton_append]
  | join hx _ _ _ ih =>
      rw [List.filter_cons_of_pos hx, ← ih, List.flatten_cons, List.flatten_cons,
        List.cons_append]

/-! ### Pieces -/

/-- The characters of a text, each with what follows it. -/
def places : List Char → List (Char × List Char)
  | [] => []
  | c :: rest => (c, rest) :: places rest

/-- The places of letters and digits, in runs. -/
def runs (cs : List Char) : List (List (Char × List Char)) :=
  (places cs).splitOnP fun p => !p.1.isAlphanum

/-- Whether there is no boundary between a place and the next one. -/
def isJoined (p q : Char × List Char) : Bool :=
  !isBoundary p.1 q.1 q.2

/-- The pieces of a text that is cut at the characters that are neither letters nor digits,
which are dropped, and at each boundary between letters or digits. -/
def pieces (cs : List Char) : List (List Char) :=
  ((runs cs).flatMap (List.splitBy isJoined)).map (List.map Prod.fst)

theorem runs_cons_of_not_isAlphanum {x : Char} {rest : List Char} (hx : x.isAlphanum = false) :
  runs (x :: rest) = [] :: runs rest
  := by
  rw [runs, places, List.splitOnP_cons_eq_if_modifyHead, if_pos (by simp [hx]), runs]

/-- A letter or digit is in the first run. The next one follows it there at once. -/
theorem exists_runs_cons {x : Char} (hx : x.isAlphanum) (rest : List Char) :
  ∃ run more, runs rest = run :: more ∧ runs (x :: rest) = ((x, rest) :: run) :: more
  := by
  obtain ⟨run, more, hruns⟩ := List.exists_cons_of_ne_nil (List.splitOnP_ne_nil _ (places rest))
  use run, more, hruns
  rw [runs, places, List.splitOnP_cons_eq_if_modifyHead, if_neg (by simp [hx]), hruns,
    List.modifyHead_cons]

/-- A run goes on behind `x` only if no word ends there. -/
theorem not_isJoined_of_endsWord
    {x : Char} {rest : List Char} (hend : endsWord x rest) {run : List (Char × List Char)}
    {more : List (List (Char × List Char))} (hruns : runs rest = run :: more) :
  ∀ q ∈ run.head?, isJoined (x, rest) q = false
  := by
  cases rest with
  | nil =>
      obtain ⟨rfl, -⟩ := List.cons.inj (hruns : [[]] = _)
      simp
  | cons y after =>
      cases hy : y.isAlphanum with
      | false =>
          rw [runs_cons_of_not_isAlphanum hy] at hruns
          obtain ⟨rfl, -⟩ := List.cons.inj hruns
          simp
      | true =>
          obtain ⟨run', more', -, hruns'⟩ := exists_runs_cons hy after
          obtain ⟨rfl, -⟩ := List.cons.inj (hruns'.symm.trans hruns)
          simpa [endsWord, hy, isJoined] using hend

/-- An element in front of a list that is related to the first one is in its run. -/
theorem exists_splitBy_cons_cons
    {α : Type} {r : α → α → Bool} {a b : α} (l : List α) (h : r a b) :
  ∃ m ms, (b :: l).splitBy r = (b :: m) :: ms ∧ (a :: b :: l).splitBy r = (a :: b :: m) :: ms
  := by
  have hne : (b :: l).splitBy r ≠ [] := List.splitBy_ne_nil.mpr (List.cons_ne_nil b l)
  obtain ⟨m, ms, hsplit⟩ := List.exists_cons_of_ne_nil hne
  obtain ⟨hflatten, hnil, hruns, hends⟩ := List.splitBy_eq_iff.mp hsplit
  cases m with
  | nil => simp at hnil
  | cons c m =>
      obtain ⟨rfl, hl⟩ := List.cons.inj hflatten
      use m, ms, hsplit
      rw [List.splitBy_eq_iff]
      rw [List.forall_mem_cons] at hruns
      rw [List.isChain_cons] at hends
      refine ⟨by rw [hflatten]; rfl, by simpa using hnil, ?_, ?_⟩
      · rw [List.forall_mem_cons, List.isChain_cons_cons]
        exact ⟨⟨h, hruns.1⟩, hruns.2⟩
      · rw [List.isChain_cons]
        refine ⟨?_, hends.2⟩
        intro k hk
        obtain ⟨hne, hne', hlast⟩ := hends.1 k hk
        use List.cons_ne_nil a (b :: m), hne'
        rw [List.getLast_cons hne]
        apply hlast

theorem Splits.pieces_eq {cs : List Char} {ws : List (List Char)} (h : Splits cs ws) :
  pieces cs = ws
  := by
  induction h with
  | nil => rfl
  | drop hx _ ih =>
      rw [← ih, pieces, runs_cons_of_not_isAlphanum hx]
      rfl
  | @single x rest _ hx hend _ ih =>
      obtain ⟨run, more, hrest, hruns⟩ := exists_runs_cons hx rest
      have hsplit : ((x, rest) :: run).splitBy isJoined = [(x, rest)] :: run.splitBy isJoined := by
        apply List.splitBy_append (l := [(x, rest)])
        simpa using not_isJoined_of_endsWord hend hrest
      rw [← ih, pieces, pieces, hruns, hrest, List.flatMap_cons, hsplit]
      rfl
  | @join x y after w ws hx hy hboundary _ ih =>
      obtain ⟨run, more, -, hruns⟩ := exists_runs_cons hy after
      obtain ⟨_, _, hruns', hlonger⟩ := exists_runs_cons hx (y :: after)
      obtain ⟨rfl, rfl⟩ := List.cons.inj (hruns.symm.trans hruns')
      have hjoined : isJoined (x, y :: after) (y, after) := by simp [isJoined, hboundary]
      obtain ⟨m, ms, hsplit, hsplit'⟩ := exists_splitBy_cons_cons run hjoined
      rw [pieces, hruns, List.flatMap_cons, hsplit] at ih
      rw [pieces, hlonger, List.flatMap_cons, hsplit']
      simp only [List.cons_append, List.map_cons] at ih ⊢
      obtain ⟨hm, hms⟩ := List.cons.inj ih
      rw [hm, hms]

/-! ### Letters and digits of spellings -/

theorem lowercase_capitalize (w : List Char) :
  lowercase (capitalize w) = lowercase w
  := by
  cases w with
  | nil => rfl
  | cons c rest => simp [capitalize, lowercase]

theorem lowercase_append (u v : List Char) :
  lowercase (u ++ v) = lowercase u ++ lowercase v
  := List.map_append

/-- Capitals apart, the pascal-case spelling of words is the words put together. -/
theorem lowercase_joinPascal (ws : List (List Char)) :
  lowercase (joinPascal ws) = lowercase ws.flatten
  := by
  induction ws with
  | nil => rfl
  | cons w ws ih =>
      rw [List.flatten_cons, lowercase_append, ← ih, ← lowercase_capitalize w, ← lowercase_append]
      rfl

/-- Capitals apart, the camel-case spelling of words is the words put together. -/
theorem lowercase_joinCamel (ws : List (List Char)) :
  lowercase (joinCamel ws) = lowercase ws.flatten
  := by
  cases ws with
  | nil => rfl
  | cons w ws =>
      have hw : lowercase (lowercase w) = lowercase w := by simp [lowercase]
      rw [joinCamel, lowercase_append, hw, lowercase_joinPascal, ← lowercase_append,
        List.flatten_cons]

/-- The words of a text are the pieces that are left when it is cut at its boundaries and at
what is neither a letter nor a digit, and none of them is empty. Put together, they are the
letters and digits of the text, and so are its two spellings, capitals apart. -/
theorem words_cut_at_boundaries (t : String) :
  words t.toList = pieces t.toList ∧ [] ∉ words t.toList ∧
    (words t.toList).flatten = t.toList.filter Char.isAlphanum ∧
    lowercase (pascal t).toList = lowercase (t.toList.filter Char.isAlphanum) ∧
    lowercase (camel t).toList = lowercase (t.toList.filter Char.isAlphanum)
  := by
  have hsplits := splits_words t.toList
  refine ⟨hsplits.pieces_eq.symm, hsplits.nil_not_mem, hsplits.flatten_eq, ?_, ?_⟩
  · rw [pascal, String.toList_ofList, lowercase_joinPascal, hsplits.flatten_eq]
  · rw [camel, String.toList_ofList, lowercase_joinCamel, hsplits.flatten_eq]

end ElmSchema.Name
