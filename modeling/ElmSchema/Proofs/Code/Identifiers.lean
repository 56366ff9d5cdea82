import ElmSchema.Code.Declaration
import ElmSchema.Proofs.Name.Alphabet
import ElmSchema.Proofs.Schema.Names

/-!
# Spellings that are identifiers

An identifier is a letter followed by letters and digits: a capital for types and constructors, a
lower-case letter for fields and functions. The first letter or digit of a text is the first
character of both its spellings, capitals apart, whatever stands before it and whichever word it
belongs to. So both spellings are identifiers if it is a letter. They start with it if it is a
digit, and they are empty if there is none.

A name of a document goes on after its leading underscores with a letter or digit, if it goes on at
all. So the names that give no identifiers are those that have nothing or a digit there.
-/

namespace ElmSchema

open Document (isName isNameStart isNameContinue)

namespace Name

/-! ### Identifiers -/

/-- Whether a text is a character of a kind followed by letters and digits. -/
def isIdentifier (isFirst : Char → Bool) (s : String) : Bool :=
  match s.toList with
  | [] => false
  | c :: rest => isFirst c && rest.all Char.isAlphanum

/-- Whether a text has the shape of the name of a type or constructor. -/
def isUpperIdentifier (s : String) : Bool :=
  isIdentifier Char.isUpper s

/-- Whether a text has the shape of the name of a field or function. -/
def isLowerIdentifier (s : String) : Bool :=
  isIdentifier Char.isLower s

/-- For a text of letters and digits, the first of them decides. -/
theorem isIdentifier_of_isAlphanum
    (isFirst : Char → Bool) {s : String} (h : ∀ c ∈ s.toList, c.isAlphanum) :
  isIdentifier isFirst s = s.toList.head?.any isFirst
  := by
  rw [isIdentifier]
  cases hs : s.toList with
  | nil => rfl
  | cons c rest =>
      have hrest : rest.all Char.isAlphanum := by
        rw [List.all_eq_true]
        intro x hx
        apply h
        rw [hs]
        apply List.mem_cons_of_mem c hx
      simp [hrest]

/-! ### First characters -/

theorem isDigit_of_not_isAlpha {c : Char} (h : c.isAlphanum) (halpha : c.isAlpha = false) :
  c.isDigit
  := by
  simpa [Char.isAlphanum, halpha] using h

/-- The first letter or digit of a text. -/
def initial? (t : String) : Option Char :=
  t.toList.find? Char.isAlphanum

theorem isAlphanum_of_initial? {t : String} {c : Char} (h : initial? t = some c) :
  c.isAlphanum
  := List.find?_some h

theorem initial?_eq_none_iff {t : String} :
  initial? t = none ↔ ∀ c ∈ t.toList, c.isAlphanum = false
  := by
  simp [initial?]

/-- The first letter or digit of a text is the first character of its first word. -/
theorem head?_flatten_words (t : String) :
  (words t.toList).flatten.head? = initial? t
  := by
  rw [(splits_words t.toList).flatten_eq, List.head?_filter, initial?]

/-- The first word keeps its first character in front, in upper or in lower case. -/
theorem head?_join {ws : List (List Char)} (h : [] ∉ ws) :
  (joinPascal ws).head? = ws.flatten.head?.map Char.toUpper ∧
    (joinCamel ws).head? = ws.flatten.head?.map Char.toLower
  := by
  cases ws with
  | nil => exact ⟨rfl, rfl⟩
  | cons w ws =>
      cases w with
      | nil => simp at h
      | cons c rest => exact ⟨rfl, rfl⟩

/-- The pascal-case spelling starts with the first letter or digit of the text. -/
theorem head?_pascal (t : String) :
  (pascal t).toList.head? = (initial? t).map Char.toUpper
  := by
  rw [pascal, String.toList_ofList, (head?_join (splits_words _).nil_not_mem).1,
    head?_flatten_words]

/-- The camel-case spelling starts with the first letter or digit of the text. -/
theorem head?_camel (t : String) :
  (camel t).toList.head? = (initial? t).map Char.toLower
  := by
  rw [camel, String.toList_ofList, (head?_join (splits_words _).nil_not_mem).2,
    head?_flatten_words]

/-! ### Spellings that are identifiers -/

/-- Whether there are letters or digits in a text, and the first one is a letter. -/
def startsWithLetter (t : String) : Bool :=
  (initial? t).any Char.isAlpha

theorem isUpperIdentifier_pascal (t : String) :
  isUpperIdentifier (pascal t) = startsWithLetter t
  := by
  rw [isUpperIdentifier, isIdentifier_of_isAlphanum _ (fun _ => isAlphanum_of_mem_pascal),
    head?_pascal, startsWithLetter]
  cases initial? t with
  | none => rfl
  | some c => simp

theorem isLowerIdentifier_camel (t : String) :
  isLowerIdentifier (camel t) = startsWithLetter t
  := by
  rw [isLowerIdentifier, isIdentifier_of_isAlphanum _ (fun _ => isAlphanum_of_mem_camel),
    head?_camel, startsWithLetter]
  cases initial? t with
  | none => rfl
  | some c => simp

/-- An ending that does not start with a lower-case letter makes no identifier of a spelling that
is none. -/
theorem isLowerIdentifier_camel_append
    (t : String) {ending : String} (h : ending.toList.all Char.isAlphanum)
    (hfirst : ending.toList.head?.any Char.isLower = false) :
  isLowerIdentifier (camel t ++ ending) = startsWithLetter t
  := by
  have hall : ∀ c ∈ (camel t ++ ending).toList, c.isAlphanum := by
    intro c hc
    rcases List.mem_append.mp (String.toList_append ▸ hc) with hc | hc
    · apply isAlphanum_of_mem_camel hc
    · apply List.all_eq_true.mp h c hc
  rw [isLowerIdentifier, isIdentifier_of_isAlphanum _ hall, String.toList_append, List.head?_append,
    head?_camel, startsWithLetter]
  cases initial? t with
  | none => simpa using hfirst
  | some c => simp

/-- The spellings are empty or start with a digit if the first letter or digit is no letter. -/
theorem spellings_of_not_startsWithLetter {t : String} (h : startsWithLetter t = false) :
  ((∀ c ∈ t.toList, c.isAlphanum = false) ∧ pascal t = "" ∧ camel t = "") ∨
    ∃ c, c.isDigit ∧ initial? t = some c ∧ (pascal t).toList.head? = some c ∧
      (camel t).toList.head? = some c
  := by
  have hpascal := head?_pascal t
  have hcamel := head?_camel t
  cases hc : initial? t with
  | none =>
      left
      use initial?_eq_none_iff.mp hc
      simpa [hc] using And.intro hpascal hcamel
  | some c =>
      right
      have hdigit : c.isDigit := by
        apply isDigit_of_not_isAlpha (isAlphanum_of_initial? hc)
        simpa [startsWithLetter, hc] using h
      obtain ⟨hupper, hlower⟩ := not_of_isDigit hdigit
      rw [hc, Option.map_some, Char.toUpper_eq_of_not_isLower (by simp [hlower])] at hpascal
      rw [hc, Option.map_some, Char.toLower_eq_of_not_isUpper (by simp [hupper])] at hcamel
      use c

/-! ### Names of a document -/

/-- A text of underscores only, or of underscores followed by a digit and anything after it. -/
def IsUnfit (n : String) : Prop :=
  ∃ k, n.toList = List.replicate (k + 1) '_' ∨
    ∃ c rest, c.isDigit ∧ n.toList = List.replicate (k + 1) '_' ++ c :: rest

/-- What follows the leading underscores of a name is a letter or digit. -/
theorem exists_replicate_append :
  ∀ {cs : List Char}, (∀ c ∈ cs, isNameContinue c) →
    ∃ k rest, cs = List.replicate k '_' ++ rest ∧ ∀ c ∈ rest.head?, c.isAlphanum
  | [], _ => ⟨0, [], rfl, by simp⟩
  | c :: cs, h => by
      rw [List.forall_mem_cons] at h
      by_cases hc : c = '_'
      · obtain ⟨k, rest, rfl, hrest⟩ := exists_replicate_append h.2
        use k + 1, rest
        rw [hc, List.replicate_succ, List.cons_append]
        use rfl, hrest
      · use 0, c :: cs, rfl
        simpa [isNameContinue, hc] using h.1

/-- Underscores are no letters or digits. -/
theorem initial?_of_replicate_append
    {n : String} {k : Nat} {rest : List Char} (hn : n.toList = List.replicate k '_' ++ rest)
    (hrest : ∀ c ∈ rest.head?, c.isAlphanum) :
  initial? n = rest.head?
  := by
  have hnone : (List.replicate k '_').find? Char.isAlphanum = none := by
    rw [List.find?_eq_none]
    intro c hc
    rw [List.eq_of_mem_replicate hc]
    decide
  rw [initial?, hn, List.find?_append, hnone, Option.none_or]
  cases rest with
  | nil => rfl
  | cons c rest => exact List.find?_cons_of_pos (hrest c rfl)

theorem isNameStart_of_isDigit {c : Char} (h : c.isDigit) :
  isNameStart c = false
  := by
  have hc : c ≠ '_' := by
    rintro rfl
    revert h
    decide
  simp [isNameStart, Char.isAlpha, not_of_isDigit h, hc]

/-- The names of a document without a letter in front are the unfit ones. -/
theorem startsWithLetter_eq_false_iff {n : String} (h : isName n) :
  startsWithLetter n = false ↔ IsUnfit n
  := by
  obtain ⟨k, rest, hn, hrest⟩ := exists_replicate_append fun c => Document.isNameContinue_of_mem h
  have hinitial := initial?_of_replicate_append hn hrest
  constructor
  · intro hletter
    -- A name is not empty and starts with no digit, so there is an underscore in front.
    cases rest with
    | nil =>
        cases k with
        | zero => exact absurd hn (Document.toList_ne_nil_of_isName h)
        | succ k =>
            use k
            left
            simpa using hn
    | cons c rest =>
        have hc : c.isDigit := by
          apply isDigit_of_not_isAlpha (hrest c rfl)
          simpa [startsWithLetter, hinitial] using hletter
        cases k with
        | zero => simp [isName, hn, isNameStart_of_isDigit hc] at h
        | succ k =>
            use k
            right
            use c, rest
  · rintro ⟨k, hn | ⟨c, rest, hc, hn⟩⟩
    · rw [← List.append_nil (List.replicate (k + 1) '_')] at hn
      rw [startsWithLetter, initial?_of_replicate_append hn (by simp)]
      rfl
    · rw [startsWithLetter, initial?_of_replicate_append hn (by simp [isAlphanum_of_isDigit hc])]
      simp [Char.isAlpha, not_of_isDigit hc]

end Name

open Name

/-! ### Names in declarations -/

theorem isLowerIdentifier_toStringName (n : String) :
  isLowerIdentifier (toStringName n) = startsWithLetter n
  := isLowerIdentifier_camel_append n (by decide) (by decide)

theorem isLowerIdentifier_fromStringName (n : String) :
  isLowerIdentifier (fromStringName n) = startsWithLetter n
  := isLowerIdentifier_camel_append n (by decide) (by decide)

/-- What holds of a name just if its first letter or digit is a letter fails just if the name is
unfit. -/
theorem not_iff_isUnfit
    {n : String} {holds : Bool} (h : holds = startsWithLetter n) (hn : isName n) :
  ¬holds ↔ IsUnfit n
  := by
  rw [h, Bool.not_eq_true, startsWithLetter_eq_false_iff hn]

/-- Both spellings of a text are identifiers just if the first of its letters and digits is a
letter. Otherwise they are empty, if there are none, or start with a digit. So in the module of
a schema text the constructors of enum values, the functions of enums and the fields of records
are identifiers, but for those that come from names of underscores only, or of underscores
followed by a digit. -/
theorem identifier_unless_unfit (t : String) :
  (isUpperIdentifier (pascal t) ↔ startsWithLetter t) ∧
  (isLowerIdentifier (camel t) ↔ startsWithLetter t) ∧
  (¬startsWithLetter t →
    ((∀ c ∈ t.toList, ¬c.isAlphanum) ∧ pascal t = "" ∧ camel t = "") ∨
      ∃ c, c.isDigit ∧ initial? t = some c ∧ (pascal t).toList.head? = some c ∧
        (camel t).toList.head? = some c) ∧
  (isName t →
    (¬isUpperIdentifier (pascal t) ↔ IsUnfit t) ∧ (¬isLowerIdentifier (camel t) ↔ IsUnfit t)) ∧
  ∀ {calls : Nat} {moduleName text : String} {events : List Event} {s : Schema},
    (Source.text text).analyze calls moduleName = (events, .ok s) →
      (∀ e ∈ s.enums,
        (∃ constructors, e.union = .union e.name constructors ∧
          List.Forall₂ (fun v c => ¬isUpperIdentifier c ↔ IsUnfit v) e.values constructors) ∧
        (¬isLowerIdentifier (toStringName e.name) ↔ IsUnfit e.name) ∧
        (¬isLowerIdentifier (fromStringName e.name) ↔ IsUnfit e.name)) ∧
      ∀ r ∈ s.objects ++ s.inputs, ∃ fields, r.record = .record r.name fields ∧
        List.Forall₂ (fun f field => ¬isLowerIdentifier field.1 ↔ IsUnfit f.name) r.fields fields
  := by
  have hpascal := isUpperIdentifier_pascal t
  have hcamel := isLowerIdentifier_camel t
  refine ⟨by rw [hpascal], by rw [hcamel], ?_, ?_, ?_⟩
  · intro h
    simpa using spellings_of_not_startsWithLetter (Bool.not_eq_true _ ▸ h)
  · intro ht
    exact ⟨not_iff_isUnfit hpascal ht, not_iff_isUnfit hcamel ht⟩
  · intro calls moduleName text events s hrun
    obtain ⟨henums, hobjects, hinputs⟩ := Schema.forall_names_iff.mp (isName_of_analyze hrun)
    constructor
    · intro e he
      obtain ⟨hname, hvalues⟩ := EnumDef.forall_names_iff.mp (henums e he)
      refine ⟨⟨_, rfl, ?_⟩, not_iff_isUnfit (isLowerIdentifier_toStringName e.name) hname,
        not_iff_isUnfit (isLowerIdentifier_fromStringName e.name) hname⟩
      rw [List.forall₂_map_right_iff, List.forall₂_same]
      intro v hv
      apply not_iff_isUnfit (isUpperIdentifier_pascal v) (hvalues v hv)
    · intro r hr
      have hnames : ∀ n ∈ r.names, isName n := by
        rcases List.mem_append.mp hr with hr | hr
        · apply hobjects r hr
        · apply hinputs r hr
      refine ⟨_, rfl, ?_⟩
      rw [List.forall₂_map_right_iff, List.forall₂_same]
      intro f hf
      apply not_iff_isUnfit (isLowerIdentifier_camel f.name)
      exact ((RecordDef.forall_names_iff.mp hnames).2 f hf).1

/-- A schema text in which an enum, an enum value and a field have unfit names. -/
def oddText : String :=
  "enum _2d \x7b __ RED \x7d type User \x7b _1a: Int _id: Int \x7d"

/-- The schema of this text. -/
def oddSchema : Schema where
  enums := [⟨"_2d", ["__", "RED"]⟩]
  objects := [⟨"User", [⟨"_1a", ⟨"Int", false, false⟩⟩, ⟨"_id", ⟨"Int", false, false⟩⟩]⟩]
  inputs := []

/-- The enum gives the function `2DToString`, its first value an empty constructor, and the first
field the field `1A`. The second field gives the field `id`. -/
theorem identifier_unless_unfit_odd :
  (Source.text oddText).analyze 0 "M" = ([.parsed 2 "M", .extracted 1 1 0], .ok oddSchema) ∧
    isName "__" ∧ ¬isUpperIdentifier (pascal "__") ∧ ¬isLowerIdentifier (toStringName "_2d") ∧
    ¬isLowerIdentifier (camel "_1a") ∧ isLowerIdentifier (camel "_id")
  := by
  have hrun : (Source.text oddText).analyze 0 "M"
      = ([.parsed 2 "M", .extracted 1 1 0], .ok oddSchema) := rfl
  obtain ⟨-, -, -, hname, hschema⟩ := identifier_unless_unfit "__"
  obtain ⟨henums, hrecords⟩ := hschema hrun
  obtain ⟨-, hfunction, -⟩ := henums _ List.mem_cons_self
  obtain ⟨_, ⟨⟩, hfields⟩ := hrecords _ List.mem_cons_self
  obtain ⟨hfield, -⟩ := List.forall₂_cons.mp hfields
  obtain ⟨-, hid, -⟩ := identifier_unless_unfit "_id"
  refine ⟨hrun, rfl, (hname rfl).1.mpr ⟨1, .inl rfl⟩, hfunction.mpr ?_, hfield.mpr ?_, hid.mpr rfl⟩
  · exact ⟨0, .inr ⟨'2', ['d'], rfl, rfl⟩⟩
  · exact ⟨0, .inr ⟨'1', ['a'], rfl, rfl⟩⟩

end ElmSchema
