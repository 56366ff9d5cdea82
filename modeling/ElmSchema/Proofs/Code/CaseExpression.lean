import ElmSchema.Proofs.Code.Reading

/-!
# Case expressions

The text of an Elm function whose body is one case expression is read into the arms of the
expression, and arms are applied to a subject: the first arm whose pattern admits the
subject gives the result.

The reader knows as much of Elm as the conversions of enums use. A function starts with a
line for its type, a line for its name and a line that opens the case expression. An arm is
a line with a pattern and a line with a result, and empty lines may stand between arms.
Patterns and results are constructors without arguments, texts without escapes, and the
wildcard.
-/

namespace ElmSchema

/-! ### Meaning -/

/-- What a case expression is applied to: a constructor or a text. -/
inductive Subject where
  | constructor (name : String)
  | text (s : String)
deriving DecidableEq, Repr

/-- The pattern of an arm. -/
inductive Pattern where
  | constructor (name : String)
  | text (s : String)
  | wildcard
deriving DecidableEq, Repr

/-- The result of an arm: a text, a constructor inside `Just`, or `Nothing`. -/
inductive Outcome where
  | text (s : String)
  | just (constructor : String)
  | nothing
deriving DecidableEq, Repr

/-- An arm of a case expression. -/
structure Arm where
  pattern : Pattern
  outcome : Outcome
deriving DecidableEq, Repr

/-- Whether a pattern admits a subject. -/
def Pattern.admits : Pattern → Subject → Bool
  | .constructor name, .constructor other => name == other
  | .text s, .text other => s == other
  | .wildcard, _ => true
  | _, _ => false

/-- The outcome of the first arm that admits a subject. -/
def outcome? (arms : List Arm) (x : Subject) : Option Outcome :=
  (arms.find? fun arm => arm.pattern.admits x).map Arm.outcome

theorem outcome?_cons (arm : Arm) (arms : List Arm) (x : Subject) :
  outcome? (arm :: arms) x = if arm.pattern.admits x then some arm.outcome else outcome? arms x
  := by
  rw [outcome?, List.find?_cons]
  cases arm.pattern.admits x with
  | true => rfl
  | false => rfl

/-! ### Reading -/

/-- The name of a constructor. -/
def readConstructor? (cs : List Char) : Option String :=
  if cs.all Char.isAlphanum then some (String.ofList cs) else none

/-- The pattern that a text writes. -/
def readPattern? (cs : List Char) : Option Pattern :=
  if cs = ['_'] then some .wildcard
  else ((readLiteral? cs).map .text).or ((readConstructor? cs).map .constructor)

/-- The outcome that a text writes. -/
def readOutcome? (cs : List Char) : Option Outcome :=
  if cs = "Nothing".toList then some .nothing
  else ((readLiteral? cs).map .text).or do
    let name ← "Just ".toList.isPrefixOf? cs
    (readConstructor? name).map .just

/-- The arm that two lines write. -/
def readArm? (first second : List Char) : Option Arm := do
  let pattern ← " ->".toList.isSuffixOf? (← "        ".toList.isPrefixOf? first)
  let outcome ← "            ".toList.isPrefixOf? second
  return ⟨← readPattern? pattern, ← readOutcome? outcome⟩

/-- The arms at the start of some lines, and the lines after them. -/
def readArms : List (List Char) → List Arm × List (List Char)
  | [] => ([], [])
  | [] :: rest => readArms rest
  | [line] => ([], [line])
  | first :: second :: rest =>
    match readArm? first second with
    | none => ([], first :: second :: rest)
    | some arm => (arm :: (readArms rest).1, (readArms rest).2)

/-- The lines before the arms of a function. -/
def functionHead (name signature : String) : List String :=
  [name ++ " : " ++ signature, name ++ " x =", "    case x of"]

/-- The arms of the function at the start of some lines, and the lines after it. -/
def readFunction? (name signature : String) (lines : List (List Char)) :
    Option (List Arm × List (List Char)) :=
  (((functionHead name signature).flatMap Text.linesOf).isPrefixOf? lines).map readArms

/-! ### Reading what was written -/

/-- Letters and digits do not start a literal. -/
theorem readLiteral?_of_isAlphanum {cs : List Char} (h : ∀ c ∈ cs, c.isAlphanum) :
  readLiteral? cs = none
  := by
  cases cs with
  | nil => rfl
  | cons c rest =>
      have hc : c ≠ '"' := by
        rintro rfl
        simpa using h '"' List.mem_cons_self
      rw [readLiteral?]
      rintro _ ⟨rfl, rfl⟩
      apply hc rfl

theorem readConstructor?_of_isAlphanum {s : String} (h : ∀ c ∈ s.toList, c.isAlphanum) :
  readConstructor? s.toList = some s
  := by
  simp [readConstructor?, List.all_eq_true.mpr h]

/-- The pattern of a literal. -/
theorem readPattern?_inQuotes {s : String} (hs : ∀ c ∈ s.toList, isPlain c) :
  readPattern? (inQuotes s).toList = some (.text s)
  := by
  rw [readPattern?, if_neg, readLiteral?_inQuotes hs]
  · rfl
  · simp [inQuotes]

/-- The pattern of a constructor. -/
theorem readPattern?_of_isAlphanum {s : String} (h : ∀ c ∈ s.toList, c.isAlphanum) :
  readPattern? s.toList = some (.constructor s)
  := by
  rw [readPattern?, if_neg, readLiteral?_of_isAlphanum h, readConstructor?_of_isAlphanum h]
  · rfl
  · intro hs
    simpa [hs] using h '_'

/-- The outcome of a literal. -/
theorem readOutcome?_inQuotes {s : String} (hs : ∀ c ∈ s.toList, isPlain c) :
  readOutcome? (inQuotes s).toList = some (.text s)
  := by
  rw [readOutcome?, if_neg, readLiteral?_inQuotes hs]
  · rfl
  · simp [inQuotes]

/-- The outcome of a constructor inside `Just`. -/
theorem readOutcome?_just {s : String} (h : ∀ c ∈ s.toList, c.isAlphanum) :
  readOutcome? ("Just " ++ s).toList = some (.just s)
  := by
  have hprefix : "Just ".toList.isPrefixOf? ("Just " ++ s).toList = some s.toList := by
    rw [String.toList_append, List.isPrefixOf?_eq_some_iff_append_eq]
  rw [readOutcome?, if_neg, hprefix]
  · simp [readLiteral?, readConstructor?_of_isAlphanum h]
  · simp

/-- An arm is read from its two lines. -/
theorem readArm?_armLines
    {pattern outcome : String} {p : Pattern} {o : Outcome}
    (hp : readPattern? pattern.toList = some p) (ho : readOutcome? outcome.toList = some o) :
  readArm? ("        " ++ pattern ++ " ->").toList ("            " ++ outcome).toList
    = some ⟨p, o⟩
  := by
  have hfirst : "        ".toList.isPrefixOf? ("        " ++ pattern ++ " ->").toList
      = some (pattern ++ " ->").toList := by
    rw [List.isPrefixOf?_eq_some_iff_append_eq]
    simp
  have harrow : " ->".toList.isSuffixOf? (pattern ++ " ->").toList = some pattern.toList := by
    rw [String.toList_append, List.isSuffixOf?_eq_some_iff_append_eq]
  have hsecond : "            ".toList.isPrefixOf? ("            " ++ outcome).toList
      = some outcome.toList := by
    rw [String.toList_append, List.isPrefixOf?_eq_some_iff_append_eq]
  simp only [readArm?, hfirst, hsecond, harrow, hp, ho, Option.bind_eq_bind, Option.bind_some,
    Option.pure_def]

/-- The lines of an arm are read as this arm. -/
theorem readArms_armLines
    {pattern outcome : String} {p : Pattern} {o : Outcome}
    (hp : readPattern? pattern.toList = some p) (ho : readOutcome? outcome.toList = some o)
    (hpattern : '\n' ∉ pattern.toList) (houtcome : '\n' ∉ outcome.toList)
    (rest : List (List Char)) :
  readArms ((armLines pattern outcome).flatMap Text.linesOf ++ rest)
    = (⟨p, o⟩ :: (readArms rest).1, (readArms rest).2)
  := by
  have hfirst : '\n' ∉ ("        " ++ pattern ++ " ->").toList := by simpa using hpattern
  have hsecond : '\n' ∉ ("            " ++ outcome).toList := by simpa using houtcome
  have harm := readArm?_armLines hp ho
  simp only [armLines, List.flatMap_cons, List.flatMap_nil, Text.linesOf_of_not_mem hfirst,
    Text.linesOf_of_not_mem hsecond, List.cons_append, List.nil_append]
  cases hline : ("        " ++ pattern ++ " ->").toList with
  | nil => simp at hline
  | cons c cs =>
      rw [hline] at harm
      simp only [readArms, harm]

/-- A line that starts neither with a blank nor empty is no part of an arm. -/
theorem readArms_cons_of_ne_blank
    {c : Char} (hc : c ≠ ' ') (line : List Char) (rest : List (List Char)) :
  readArms ((c :: line) :: rest) = ([], (c :: line) :: rest)
  := by
  cases rest with
  | nil => rfl
  | cons second rest =>
      have hnone : readArm? (c :: line) second = none := by
        simp [readArm?, List.isPrefixOf?, hc.symm]
      simp only [readArms, hnone]

/-- A function is read from its head and the lines of its arms. -/
theorem readFunction?_append (name signature : String) (lines : List (List Char)) :
  readFunction? name signature ((functionHead name signature).flatMap Text.linesOf ++ lines)
    = some (readArms lines)
  := by
  rw [readFunction?, List.isPrefixOf?_eq_some_iff_append_eq.mpr rfl, Option.map_some]

end ElmSchema
