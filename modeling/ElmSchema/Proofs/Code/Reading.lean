import ElmSchema.Code.Declaration
import ElmSchema.Proofs.Document.Name
import ElmSchema.Proofs.Text.Lines

/-!
# Reading declarations

What the readers of declarations have in common: the lines of a declaration, names and
literals without escapes. A name of a document is read from the word it is, and from its
literal.
-/

namespace ElmSchema

open Document (isName isNameContinue isNameContinue_of_mem not_mem_of_isName
  toList_ne_nil_of_isName)

/-! ### Lines -/

/-- The lines in the text of a declaration whose last line ends with a character that is not
blank. -/
theorem linesOf_render
    {d : Declaration} {last : String} (hlast : d.lines.getLast? = some last)
    (hfilled : Text.isFilled last) :
  Text.linesOf d.render = d.lines.flatMap Text.linesOf
  := by
  have hne : d.lines ≠ [] := by
    intro hnil
    simp [hnil] at hlast
  rw [Declaration.render, Text.trimEnd_of_isFilled, Text.linesOf_intercalate hne]
  apply Text.isFilled_intercalate "\n" hlast hfilled

/-! ### Names -/

/-- The name that a word is. -/
def readName? (word : List Char) : Option String :=
  if !word.isEmpty && word.all isNameContinue then some (String.ofList word) else none

theorem readName?_of_isName {s : String} (h : isName s) :
  readName? s.toList = some s
  := by
  have hall : s.toList.all isNameContinue :=
    List.all_eq_true.mpr fun _ => isNameContinue_of_mem h
  simp only [readName?, hall, List.isEmpty_eq_false_iff.mpr (toList_ne_nil_of_isName h)]
  simp

theorem blank_not_mem_name {s : String} (h : isName s) :
  ' ' ∉ s.toList
  := not_mem_of_isName h (by decide)

theorem newline_not_mem_name {s : String} (h : isName s) :
  '\n' ∉ s.toList
  := not_mem_of_isName h (by decide)

/-- A name ends with a character that is not blank. -/
theorem isFilled_of_isName {s : String} (h : isName s) :
  Text.isFilled s
  := by
  obtain ⟨c, hlast⟩ : ∃ c, s.toList.getLast? = some c :=
    Option.ne_none_iff_exists'.mp (by simpa using toList_ne_nil_of_isName h)
  have hc := isNameContinue_of_mem h (List.mem_of_getLast? hlast)
  have hblank : Text.isBlank c = false := by
    rcases Bool.or_eq_true_iff.mp hc with hc | hc
    · apply Text.not_isBlank_of_isAlphanum hc
    · obtain rfl := eq_of_beq hc
      decide
  simp [Text.isFilled, hlast, hblank]

/-! ### Literals -/

/-- Whether a character stands for itself in a literal. -/
def isPlain (c : Char) : Bool :=
  c != '"' && c != '\\'

/-- The text that a literal stands for. Literals with escapes are not read. -/
def readLiteral? : List Char → Option String
  | '"' :: rest => do
    let cs ← ['"'].isSuffixOf? rest
    if cs.all isPlain then some (String.ofList cs) else none
  | _ => none

/-- A text without quotes and backslashes is read from its literal. -/
theorem readLiteral?_inQuotes {s : String} (hs : ∀ c ∈ s.toList, isPlain c) :
  readLiteral? (inQuotes s).toList = some s
  := by
  have hsuffix : ['"'].isSuffixOf? (s.toList ++ ['"']) = some s.toList :=
    List.isSuffixOf?_eq_some_iff_append_eq.mpr rfl
  have hall : s.toList.all isPlain := List.all_eq_true.mpr hs
  simp only [inQuotes, String.toList_append]
  simp [readLiteral?, hsuffix, hall, -List.all_eq_true]

/-- A name holds characters that stand for themselves in a literal. -/
theorem isPlain_of_mem_name {s : String} (h : isName s) {c : Char} (hc : c ∈ s.toList) :
  isPlain c
  := by
  have := isNameContinue_of_mem h hc
  simp only [isPlain, Bool.and_eq_true, bne_iff_ne]
  constructor
  · rintro rfl
    simp [isNameContinue] at this
  · rintro rfl
    simp [isNameContinue] at this

theorem newline_not_mem_inQuotes {s : String} (h : isName s) :
  '\n' ∉ (inQuotes s).toList
  := by
  simpa [inQuotes] using newline_not_mem_name h

end ElmSchema
