import ElmSchema.Proofs.Name.Letters
import ElmSchema.Text.Blank
import Mathlib.Data.List.Basic
import Mathlib.Data.List.TakeWhile

/-!
# Lines, words and trimmed texts

The lines of a text are the pieces between its newlines, and its words those between its
blanks. Texts joined by newlines have the lines of the texts, one after the other. A text that
ends with a character that is not blank is not changed when the blanks at its end are removed.
-/

namespace ElmSchema.Text

/-- The lines of a text, cut at newlines. -/
def linesOf (s : String) : List (List Char) :=
  s.toList.splitOn '\n'

theorem linesOf_of_not_mem {s : String} (h : '\n' ∉ s.toList) :
  linesOf s = [s.toList]
  := List.splitOn_eq_singleton h

/-- The lines of texts joined by newlines are the lines of the texts. -/
theorem linesOf_intercalate :
  ∀ {texts : List String}, texts ≠ [] → linesOf ("\n".intercalate texts) = texts.flatMap linesOf
  | [], h => absurd rfl h
  | [s], _ => by simp
  | s :: t :: rest, _ => by
      have ih := linesOf_intercalate (List.cons_ne_nil t rest)
      rw [String.intercalate_cons_cons, List.flatMap_cons, ← ih]
      simp [linesOf, List.splitOn_append_cons_self]

/-- Texts that hold no newline are their lines. -/
theorem flatMap_linesOf_of_not_mem {texts : List String} (h : ∀ s ∈ texts, '\n' ∉ s.toList) :
  texts.flatMap linesOf = texts.map String.toList
  := by
  rw [List.map_eq_flatMap]
  apply List.flatMap_congr
  intro s hs
  apply linesOf_of_not_mem (h s hs)

/-- The first line of a text begins as the text does. -/
theorem exists_linesOf_eq_cons
    {s : String} {c : Char} {cs : List Char} (h : s.toList = c :: cs) (hc : c ≠ '\n') :
  ∃ line more, linesOf s = (c :: line) :: more
  := by
  obtain ⟨line, more, hsplit⟩ : ∃ line more, cs.splitOn '\n' = line :: more :=
    List.exists_cons_of_ne_nil (List.splitOn_ne_nil '\n' cs)
  use line, more
  rw [linesOf, h, List.splitOn_cons_eq_if_modifyHead, hsplit]
  simp [hc]

/-! ### Words -/

/-- The words of a text, cut at each blank. -/
def wordsOf (s : String) : List (List Char) :=
  s.toList.splitOn ' '

theorem wordsOf_of_not_mem {s : String} (h : ' ' ∉ s.toList) :
  wordsOf s = [s.toList]
  := List.splitOn_eq_singleton h

/-- A text that starts with a word and a blank has this word and the words of its rest. -/
theorem wordsOf_eq_cons
    {s rest : String} {word : List Char} (h : s.toList = word ++ ' ' :: rest.toList)
    (hword : ' ' ∉ word) :
  wordsOf s = word :: wordsOf rest
  := by
  rw [wordsOf, h, List.splitOn_append_cons_self_of_not_mem hword]
  rfl

/-! ### Trimming -/

/-- Letters and digits are not blank. -/
theorem not_isBlank_of_isAlphanum {c : Char} (h : c.isAlphanum) :
  isBlank c = false
  := by
  rw [Name.isAlphanum_iff, Name.isUpper_iff, Name.isLower_iff, Name.isDigit_iff] at h
  simp only [isBlank, Bool.or_eq_false_iff, Bool.and_eq_false_iff, decide_eq_false_iff_not,
    beq_eq_false_iff_ne]
  omega

/-- A text of which all is to be trimmed is trimmed to nothing. -/
theorem dropEnd_eq_nil {p : Char → Bool} {cs : List Char} (h : ∀ c ∈ cs, p c) :
  dropEnd p cs = []
  := by
  rw [dropEnd, List.reverse_eq_nil_iff, List.dropWhile_eq_nil_iff]
  intro c hc
  apply h c (List.mem_reverse.mp hc)

/-- What stands before a character that is kept is not trimmed. -/
theorem dropEnd_append_cons
    {p : Char → Bool} {c : Char} (h : p c = false) (before after : List Char) :
  dropEnd p (before ++ c :: after) = before ++ c :: dropEnd p after
  := by
  simp only [dropEnd, List.reverse_append, List.reverse_cons, List.append_assoc,
    List.singleton_append]
  rw [List.dropWhile_append]
  split
  · rename_i hempty
    have hnil := List.isEmpty_iff.mp hempty
    simp [hnil, h]
  · simp

/-- Whether a text ends with a character that is not blank. -/
def isFilled (s : String) : Bool :=
  s.toList.getLast?.any fun c => !isBlank c

theorem isFilled_append (s : String) {t : String} (h : isFilled t) :
  isFilled (s ++ t)
  := by
  simp only [isFilled, String.toList_append, List.getLast?_append] at h ⊢
  cases ht : t.toList.getLast? with
  | none => simp [ht] at h
  | some c => simpa [ht] using h

/-- Joined texts end with a character that is not blank if the last one does. -/
theorem isFilled_intercalate (separator : String) :
  ∀ {texts : List String} {last : String}, texts.getLast? = some last → isFilled last →
    isFilled (separator.intercalate texts)
  | [], _, h, _ => by simp at h
  | [s], last, h, hlast => by
      obtain rfl : s = last := by simpa using h
      simpa using hlast
  | s :: t :: rest, last, h, hlast => by
      rw [String.intercalate_cons_cons]
      apply isFilled_append
      apply isFilled_intercalate separator (by simpa using h) hlast

/-- A text that ends with a character that is not blank has no blanks to remove. -/
theorem trimEnd_of_isFilled {s : String} (h : isFilled s) :
  trimEnd s = s
  := by
  simp only [isFilled, Option.any_eq_true, Bool.not_eq_true'] at h
  obtain ⟨c, hlast, hc⟩ := h
  obtain ⟨init, hinit⟩ := List.getLast?_eq_some_iff.mp hlast
  rw [trimEnd, hinit, dropEnd_append_cons hc]
  simp [dropEnd, ← hinit]

end ElmSchema.Text
