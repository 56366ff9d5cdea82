import ElmSchema.Document.Literal

/-!
# Names of a document

A name of a document starts with a letter or an underscore and goes on with letters, digits
and underscores.
-/

namespace ElmSchema.Document

/-- Whether a text is a name. -/
def isName (s : String) : Bool :=
  match s.toList with
  | [] => false
  | c :: rest => isNameStart c && rest.all isNameContinue

/-- What may start a name may also go on with it. -/
theorem isNameContinue_of_isNameStart {c : Char} (h : isNameStart c) :
  isNameContinue c
  := by
  simp only [isNameStart, isNameContinue, Char.isAlphanum, Bool.or_eq_true] at h ⊢
  rcases h with h | h
  · left
    left
    apply h
  · right
    apply h

/-- A name holds characters that a name may go on with. -/
theorem isNameContinue_of_mem {s : String} (h : isName s) {c : Char} (hc : c ∈ s.toList) :
  isNameContinue c
  := by
  cases hs : s.toList with
  | nil => simp [hs] at hc
  | cons first rest =>
      simp only [isName, hs, Bool.and_eq_true, List.all_eq_true] at h
      rw [hs] at hc
      rcases List.mem_cons.mp hc with rfl | hc
      · apply isNameContinue_of_isNameStart h.1
      · apply h.2 c hc

/-- A character that no name goes on with is in no name. -/
theorem not_mem_of_isName {s : String} (h : isName s) {c : Char} (hc : isNameContinue c = false) :
  c ∉ s.toList
  := by
  intro hmem
  have := isNameContinue_of_mem h hmem
  simp [hc] at this

/-- A name is not empty. -/
theorem toList_ne_nil_of_isName {s : String} (h : isName s) :
  s.toList ≠ []
  := by
  intro hs
  simp [isName, hs] at h

end ElmSchema.Document
