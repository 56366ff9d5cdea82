import ElmSchema.Proofs.Code.CaseExpression
import ElmSchema.Proofs.Name.Alphabet
import ElmSchema.Proofs.Schema.Warnings

/-!
# Declarations of an enum

The text of the union type of an enum is read as a list of constructors, and the text of its
conversions as the arms of two case expressions. The two functions are inverse to each other
whenever the enum gives no warning. If two values share a constructor, there is a warning,
and some value does not come back from its constructor.
-/

namespace ElmSchema

open Document (isName)

/-! ### Reading -/

/-- The blanks around a text removed. -/
def strip (cs : List Char) : List Char :=
  Text.dropEnd Text.isBlank (cs.dropWhile Text.isBlank)

/-- The constructors in the text of a union type. -/
def readUnion? (name text : String) : Option (List String) :=
  (("type " ++ name ++ " =").toList.isPrefixOf? text.toList).map fun cs =>
    ((cs.splitOn '|').map strip).map String.ofList

/-- The arms of the function to texts and of the function from texts in the text of
conversions. -/
def readConversions? (typeName text : String) : Option (List Arm × List Arm) := do
  let (toArms, rest) ←
    readFunction? (toStringName typeName) (typeName ++ " -> String") (Text.linesOf text)
  let (fromArms, rest) ←
    readFunction? (fromStringName typeName) ("String -> Maybe " ++ typeName) rest
  if rest.isEmpty then some (toArms, fromArms) else none

/-- The arm that turns the constructor of a value into the value. -/
def toArm (value : String) : Arm :=
  ⟨.constructor (Name.pascal value), .text value⟩

/-- The arm that turns a value into its constructor. -/
def fromArm (value : String) : Arm :=
  ⟨.text value, .just (Name.pascal value)⟩

/-! ### The union type -/

/-- Blanks around a text without blanks are stripped, and nothing else. -/
theorem strip_padded
    (before after : List Char) {cs : List Char} (hbefore : ∀ c ∈ before, Text.isBlank c)
    (hcs : ∀ c ∈ cs, Text.isBlank c = false) (hafter : ∀ c ∈ after, Text.isBlank c) :
  strip (before ++ cs ++ after) = cs
  := by
  rw [strip, List.append_assoc, List.dropWhile_append_of_pos hbefore]
  rcases List.eq_nil_or_concat' cs with rfl | ⟨init, last, rfl⟩
  · rw [List.nil_append, List.dropWhile_eq_nil_iff.mpr hafter]
    rfl
  · have hdrop : (init ++ [last] ++ after).dropWhile Text.isBlank = init ++ last :: after := by
      rw [List.append_assoc, List.singleton_append]
      cases init with
      | nil =>
          apply List.dropWhile_cons_of_neg
          simp [hcs last (by simp)]
      | cons c rest =>
          apply List.dropWhile_cons_of_neg
          simp [hcs c (by simp)]
    rw [hdrop, Text.dropEnd_append_cons (hcs last (by simp)), Text.dropEnd_eq_nil hafter]

/-- Blanks at the end of a stripped text make no difference. -/
theorem strip_blank_cons_dropEnd {cs : List Char} (hcs : ∀ c ∈ cs, Text.isBlank c = false) :
  strip (Text.dropEnd Text.isBlank (' ' :: cs)) = cs
  := by
  rcases List.eq_nil_or_concat' cs with rfl | ⟨init, last, rfl⟩
  · rfl
  · have hlast : Text.isBlank last = false := hcs last (by simp)
    have hkept : Text.dropEnd Text.isBlank (' ' :: (init ++ [last]))
        = [' '] ++ (init ++ [last]) ++ [] := by
      rw [← List.cons_append, Text.dropEnd_append_cons hlast]
      simp [Text.dropEnd]
    rw [hkept]
    apply strip_padded _ _ _ hcs
    · simp
    · simp [Text.isBlank]

/-- Constructors between bars, with a blank on each side of a bar and the blanks at the end
removed, are the stripped pieces between the bars. -/
theorem map_strip_splitOn :
  ∀ {constructors : List (List Char)}, constructors ≠ [] →
    (∀ cs ∈ constructors, ∀ c ∈ cs, c.isAlphanum) →
    ((Text.dropEnd Text.isBlank (' ' :: " | ".toList.intercalate constructors)).splitOn '|').map
        strip
      = constructors
  | [], hne, _ => absurd rfl hne
  | [cs], _, hall => by
      have hcs : ∀ c ∈ cs, c.isAlphanum := hall cs List.mem_cons_self
      have hbar : '|' ∉ Text.dropEnd Text.isBlank (' ' :: cs) := by
        intro hmem
        have := (List.dropWhile_subset _) (List.mem_reverse.mp hmem)
        rcases List.mem_cons.mp (List.mem_reverse.mp this) with h | h
        · simp at h
        · simpa using hcs '|' h
      rw [List.intercalate_singleton, List.splitOn_eq_singleton hbar, List.map_singleton,
        strip_blank_cons_dropEnd fun c hc => Text.not_isBlank_of_isAlphanum (hcs c hc)]
  | cs :: next :: rest, _, hall => by
      have hcs : ∀ c ∈ cs, c.isAlphanum := hall cs List.mem_cons_self
      have ih := map_strip_splitOn (List.cons_ne_nil next rest)
        (fun d hd => hall d (List.mem_cons_of_mem cs hd))
      have hbar : '|' ∉ ' ' :: cs ++ [' '] := by
        simp only [List.cons_append, List.mem_cons, List.mem_append, List.not_mem_nil, or_false]
        rintro (h | h | h)
        · simp at h
        · simpa using hcs '|' h
        · simp at h
      have hsplit : ' ' :: " | ".toList.intercalate (cs :: next :: rest)
          = (' ' :: cs ++ [' ']) ++ '|' :: ' ' :: " | ".toList.intercalate (next :: rest) := by
        simp
      have hstrip : strip (' ' :: cs ++ [' ']) = cs := by
        apply strip_padded [' '] [' ']
        · simp [Text.isBlank]
        · intro c hc
          apply Text.not_isBlank_of_isAlphanum (hcs c hc)
        · simp [Text.isBlank]
      rw [hsplit, Text.dropEnd_append_cons (by decide),
        List.splitOn_append_cons_self_of_not_mem hbar, List.map_cons, ih, hstrip]

/-- The text of the union type of an enum: its head, and its constructors between bars. -/
theorem toList_render_union (e : EnumDef) :
  e.union.render.toList = ("type " ++ e.name ++ " =").toList
    ++ Text.dropEnd Text.isBlank
      (' ' :: " | ".toList.intercalate ((e.values.map Name.pascal).map String.toList))
  := by
  have hhead : ("type " ++ e.name ++ " = " ++ " | ".intercalate (e.values.map Name.pascal)).toList
      = ("type " ++ e.name ++ " ").toList ++ '=' :: ' ' ::
        " | ".toList.intercalate ((e.values.map Name.pascal).map String.toList) := by
    simp
  rw [Declaration.render, EnumDef.union, Declaration.lines, String.intercalate_singleton,
    Text.trimEnd, String.toList_ofList, hhead, Text.dropEnd_append_cons (by decide)]
  simp

/-- The constructors in the text of the union type of an enum are those of its values. -/
theorem readUnion?_union {e : EnumDef} (hne : e.values ≠ []) :
  readUnion? e.name e.union.render = some (e.values.map Name.pascal)
  := by
  have hall : ∀ cs ∈ (e.values.map Name.pascal).map String.toList, ∀ c ∈ cs, c.isAlphanum := by
    intro cs hcs c hc
    simp only [List.map_map, List.mem_map, Function.comp_apply] at hcs
    obtain ⟨value, -, rfl⟩ := hcs
    apply Name.isAlphanum_of_mem_pascal hc
  have hpieces := map_strip_splitOn (by simpa using hne) hall
  rw [readUnion?, List.isPrefixOf?_eq_some_iff_append_eq.mpr (toList_render_union e).symm]
  rw [Option.map_some, hpieces]
  simp

/-! ### The conversions -/

theorem newline_not_mem_pascal (s : String) :
  '\n' ∉ (Name.pascal s).toList
  := by
  intro h
  simpa using Name.isAlphanum_of_mem_pascal h

/-- The arm that turns a constructor into a value is read from its lines. -/
theorem readArms_toArm {v : String} (hv : isName v) (rest : List (List Char)) :
  readArms ((armLines (Name.pascal v) (inQuotes v)).flatMap Text.linesOf ++ rest)
    = (toArm v :: (readArms rest).1, (readArms rest).2)
  := by
  apply readArms_armLines
  · apply readPattern?_of_isAlphanum fun _ => Name.isAlphanum_of_mem_pascal
  · apply readOutcome?_inQuotes fun _ => isPlain_of_mem_name hv
  · apply newline_not_mem_pascal
  · apply newline_not_mem_inQuotes hv

/-- The arm that turns a value into a constructor is read from its lines. -/
theorem readArms_fromArm {v : String} (hv : isName v) (rest : List (List Char)) :
  readArms ((armLines (inQuotes v) ("Just " ++ Name.pascal v)).flatMap Text.linesOf ++ rest)
    = (fromArm v :: (readArms rest).1, (readArms rest).2)
  := by
  apply readArms_armLines
  · apply readPattern?_inQuotes fun _ => isPlain_of_mem_name hv
  · apply readOutcome?_just fun _ => Name.isAlphanum_of_mem_pascal
  · apply newline_not_mem_inQuotes hv
  · simpa using newline_not_mem_pascal v

/-- An empty line between arms is passed over. -/
theorem readArms_empty_line (rest : List (List Char)) :
  readArms (Text.linesOf "" ++ rest) = readArms rest
  := by
  rw [Text.linesOf_of_not_mem (by simp)]
  rfl

/-- The arms of the function to texts are read from its lines. -/
theorem readArms_toLines :
  ∀ {values : List String}, (∀ v ∈ values, isName v) → ∀ (rest : List (List Char)),
    readArms ((separateLines (values.map fun v => armLines (Name.pascal v) (inQuotes v))).flatMap
        Text.linesOf ++ rest)
      = (values.map toArm ++ (readArms rest).1, (readArms rest).2)
  | [], _, rest => rfl
  | [v], h, rest => readArms_toArm (h v List.mem_cons_self) rest
  | v :: w :: values, h, rest => by
      have ih := readArms_toLines (fun u hu => h u (List.mem_cons_of_mem v hu)) rest
      simp only [List.map_cons, separateLines, List.flatMap_append, List.flatMap_cons,
        List.append_assoc] at ih ⊢
      rw [readArms_toArm (h v List.mem_cons_self), readArms_empty_line, ih]
      simp

/-- The arms of the function from texts are read from its lines. -/
theorem readArms_fromLines :
  ∀ {values : List String}, (∀ v ∈ values, isName v) → ∀ (rest : List (List Char)),
    readArms ((values.flatMap fun v =>
        armLines (inQuotes v) ("Just " ++ Name.pascal v) ++ [""]).flatMap Text.linesOf ++ rest)
      = (values.map fromArm ++ (readArms rest).1, (readArms rest).2)
  | [], _, rest => rfl
  | v :: values, h, rest => by
      have ih := readArms_fromLines (fun u hu => h u (List.mem_cons_of_mem v hu)) rest
      simp only [List.flatMap_cons, List.flatMap_append, List.flatMap_nil, List.append_nil,
        List.append_assoc] at ih ⊢
      rw [readArms_fromArm (h v List.mem_cons_self), readArms_empty_line, ih]
      simp

/-- The lines of the conversions of an enum: those of the two functions, each with its head
and its arms. -/
theorem lines_conversions (e : EnumDef) :
  e.conversions.lines =
    functionHead (toStringName e.name) (e.name ++ " -> String") ++
      (separateLines (e.values.map fun v => armLines (Name.pascal v) (inQuotes v)) ++ "" :: "" ::
        (functionHead (fromStringName e.name) ("String -> Maybe " ++ e.name) ++
          ((e.values.flatMap fun v => armLines (inQuotes v) ("Just " ++ Name.pascal v) ++ [""]) ++
            armLines "_" "Nothing")))
  := by
  have hto : toStringName e.name ++ " : " ++ (e.name ++ " -> String")
      = toStringName e.name ++ " : " ++ e.name ++ " -> String" := by
    simp only [String.append_assoc]
  have hfrom : fromStringName e.name ++ " : " ++ ("String -> Maybe " ++ e.name)
      = fromStringName e.name ++ " : String -> Maybe " ++ e.name := by
    simp [← String.toList_inj]
  simp [EnumDef.conversions, Declaration.lines, Conversions.toLines, Conversions.fromLines,
    functionHead, hto, hfrom, List.flatMap_map, Function.comp_def]

/-- The lines in the text of the conversions of an enum. -/
theorem linesOf_render_conversions (e : EnumDef) :
  Text.linesOf e.conversions.render = e.conversions.lines.flatMap Text.linesOf
  := by
  have hlast : e.conversions.lines.getLast? = some "            Nothing" := by
    rw [lines_conversions]
    simp [List.getLast?_append, List.getLast?_cons, armLines]
  apply linesOf_render hlast
  decide

theorem isAlphanum_of_mem_toStringName
    {typeName : String} {c : Char} (hc : c ∈ (toStringName typeName).toList) :
  c.isAlphanum
  := by
  rw [toStringName, String.toList_append, List.mem_append] at hc
  rcases hc with hc | hc
  · apply Name.isAlphanum_of_mem_camel hc
  · have hall : "ToString".toList.all Char.isAlphanum := by decide
    apply List.all_eq_true.mp hall c hc

theorem isAlphanum_of_mem_fromStringName
    {typeName : String} {c : Char} (hc : c ∈ (fromStringName typeName).toList) :
  c.isAlphanum
  := by
  rw [fromStringName, String.toList_append, List.mem_append] at hc
  rcases hc with hc | hc
  · apply Name.isAlphanum_of_mem_camel hc
  · have hall : "FromString".toList.all Char.isAlphanum := by decide
    apply List.all_eq_true.mp hall c hc

/-- The head of the function from texts is no part of an arm. -/
theorem readArms_functionHead (typeName signature : String) (rest : List (List Char)) :
  readArms ((functionHead (fromStringName typeName) signature).flatMap Text.linesOf ++ rest)
    = ([], (functionHead (fromStringName typeName) signature).flatMap Text.linesOf ++ rest)
  := by
  obtain ⟨c, cs, hname⟩ : ∃ c cs, (fromStringName typeName).toList = c :: cs := by
    apply List.exists_cons_of_ne_nil
    simp [fromStringName]
  have hc : c.isAlphanum := by
    apply isAlphanum_of_mem_fromStringName
    rw [hname]
    apply List.mem_cons_self
  obtain ⟨line, more, hline⟩ : ∃ line more,
      Text.linesOf (fromStringName typeName ++ " : " ++ signature) = (c :: line) :: more := by
    apply Text.exists_linesOf_eq_cons
    · rw [String.toList_append, String.toList_append, hname, List.cons_append, List.cons_append]
    · rintro rfl
      simp at hc
  rw [functionHead, List.flatMap_cons, hline]
  apply readArms_cons_of_ne_blank
  rintro rfl
  simp at hc

/-- The arms of the two conversions of an enum are read from their text. -/
theorem readConversions?_conversions {e : EnumDef} (h : ∀ v ∈ e.values, isName v) :
  readConversions? e.name e.conversions.render
    = some (e.values.map toArm, e.values.map fromArm ++ [⟨.wildcard, .nothing⟩])
  := by
  have hwildcard : readArms ((armLines "_" "Nothing").flatMap Text.linesOf)
      = ([⟨.wildcard, .nothing⟩], []) := by
    decide
  simp only [readConversions?, linesOf_render_conversions, lines_conversions, List.flatMap_append,
    List.flatMap_cons, readFunction?_append, readArms_toLines h, readArms_fromLines h,
    readArms_empty_line, readArms_functionHead, hwildcard, Option.bind_eq_bind, Option.bind_some,
    List.append_nil, List.isEmpty_nil, if_true]

/-! ### The conversions as functions -/

/-- A constructor is turned into the first value that has it. -/
theorem outcome?_toArms (values : List String) (c : String) :
  outcome? (values.map toArm) (.constructor c)
    = (values.find? fun v => Name.pascal v == c).map .text
  := by
  rw [outcome?, List.find?_map, Option.map_map]
  rfl

/-- A value is turned into its constructor, and any other text into nothing. -/
theorem outcome?_fromArms (s : String) :
  ∀ (values : List String),
    outcome? (values.map fromArm ++ [⟨.wildcard, .nothing⟩]) (.text s)
      = some (if s ∈ values then .just (Name.pascal s) else .nothing)
  | [] => rfl
  | v :: values => by
      rw [List.map_cons, List.cons_append, outcome?_cons, outcome?_fromArms s values]
      by_cases hv : v = s
      · simp [fromArm, Pattern.admits, hv]
      · simp [fromArm, Pattern.admits, hv, Ne.symm hv]

/-- Among values with distinct constructors, a value is the first one with its constructor. -/
theorem find?_pascal_of_nodup
    {values : List String} (hnodup : (values.map Name.pascal).Nodup) {v : String}
    (hv : v ∈ values) :
  values.find? (fun w => Name.pascal w == Name.pascal v) = some v
  := by
  cases hfind : values.find? (fun w => Name.pascal w == Name.pascal v) with
  | none => simpa using List.find?_eq_none.mp hfind v hv
  | some w =>
      have hw : Name.pascal w = Name.pascal v := by simpa using List.find?_some hfind
      rw [List.inj_on_of_nodup_map hnodup (List.mem_of_find?_eq_some hfind) hv hw]

/-- Arms that turn constructors into texts and arms that turn texts into constructors are
inverse to each other, between a list of constructors and a list of values. -/
structure IsInverse
    (constructors values : List String) (toArms fromArms : List Arm) : Prop where
  from_to : ∀ c ∈ constructors, ∃ s, outcome? toArms (.constructor c) = some (.text s) ∧
    outcome? fromArms (.text s) = some (.just c)
  to_from : ∀ s c, outcome? fromArms (.text s) = some (.just c) →
    outcome? toArms (.constructor c) = some (.text s)
  just_iff : ∀ s, (∃ c, outcome? fromArms (.text s) = some (.just c)) ↔ s ∈ values
  nothing_iff : ∀ s, outcome? fromArms (.text s) = some .nothing ↔ s ∉ values

/-- The conversions of values with distinct constructors are inverse to each other. -/
theorem isInverse_of_nodup
    {values : List String} (hnodup : (values.map Name.pascal).Nodup) :
  IsInverse (values.map Name.pascal) values (values.map toArm)
    (values.map fromArm ++ [⟨.wildcard, .nothing⟩])
  := by
  constructor
  · intro c hc
    obtain ⟨v, hv, rfl⟩ := List.mem_map.mp hc
    use v
    rw [outcome?_toArms, find?_pascal_of_nodup hnodup hv, outcome?_fromArms, if_pos hv]
    simp
  · intro s c hjust
    by_cases hs : s ∈ values
    · rw [outcome?_fromArms, if_pos hs] at hjust
      obtain rfl : Name.pascal s = c := by simpa using hjust
      rw [outcome?_toArms, find?_pascal_of_nodup hnodup hs, Option.map_some]
    · simp [outcome?_fromArms, hs] at hjust
  · intro s
    by_cases hs : s ∈ values
    · simp [outcome?_fromArms, hs]
    · simp [outcome?_fromArms, hs]
  · intro s
    by_cases hs : s ∈ values
    · simp [outcome?_fromArms, hs]
    · simp [outcome?_fromArms, hs]

/-- If two values share a constructor, one of them does not come back from it. -/
theorem exists_outcome?_ne_of_pascal_eq
    {values : List String} {v w : String} (hv : v ∈ values) (hw : w ∈ values) (hne : v ≠ w)
    (heq : Name.pascal v = Name.pascal w) :
  ∃ s ∈ values, ∃ c,
    outcome? (values.map fromArm ++ [⟨.wildcard, .nothing⟩]) (.text s) = some (.just c) ∧
      outcome? (values.map toArm) (.constructor c) ≠ some (.text s)
  := by
  by_cases hfirst : values.find? (fun u => Name.pascal u == Name.pascal v) = some v
  · use w, hw, Name.pascal w
    rw [outcome?_fromArms, if_pos hw, outcome?_toArms, ← heq, hfirst]
    simp [hne]
  · use v, hv, Name.pascal v
    rw [outcome?_fromArms, if_pos hv, outcome?_toArms]
    simp [hfirst]

/-- The union type and the conversions of an enum are read from their texts. If the enum
gives no warning, the conversions are inverse to each other. If two different values share a
constructor, there is a warning, and some value does not come back from its constructor. -/
theorem conversions_inverse (e : EnumDef) (names : ∀ v ∈ e.values, isName v) :
  ∃ toArms fromArms,
    readConversions? e.name e.conversions.render = some (toArms, fromArms) ∧
    (e.warnings = [] →
      ∃ constructors, readUnion? e.name e.union.render = some constructors ∧
        constructors = e.values.map Name.pascal ∧
        IsInverse constructors e.values toArms fromArms) ∧
    (∀ v ∈ e.values, ∀ w ∈ e.values, v ≠ w → Name.pascal v = Name.pascal w →
      (∃ event ∈ e.warnings, event.level = .warning) ∧
      ∃ s ∈ e.values, ∃ c, outcome? fromArms (.text s) = some (.just c) ∧
        outcome? toArms (.constructor c) ≠ some (.text s))
  := by
  refine ⟨_, _, readConversions?_conversions names, ?_, ?_⟩
  · intro hsilent
    obtain ⟨hne, hnodup⟩ := e.warnings_eq_nil_iff.mp hsilent
    use e.values.map Name.pascal, readUnion?_union hne, rfl
    apply isInverse_of_nodup hnodup
  · intro v hv w hw hne heq
    constructor
    · have hwarned : e.warnings ≠ [] := by
        intro hsilent
        apply hne
        apply List.inj_on_of_nodup_map (e.warnings_eq_nil_iff.mp hsilent).2 hv hw heq
      obtain ⟨event, hevent⟩ := List.exists_mem_of_ne_nil _ hwarned
      use event, hevent
      apply EnumDef.level_of_mem_warnings hevent
    · apply exists_outcome?_ne_of_pascal_eq hv hw hne heq

/-- Two spellings that keep their constructors apart, and two that do not. -/
theorem conversions_inverse_spellings :
  (∃ toArms fromArms,
    readConversions? "Tint" (EnumDef.mk "Tint" ["RED", "R_ED"]).conversions.render
        = some (toArms, fromArms) ∧
      IsInverse ["Red", "REd"] ["RED", "R_ED"] toArms fromArms) ∧
  (∃ toArms fromArms,
    readConversions? "Tint" (EnumDef.mk "Tint" ["RED", "_red"]).conversions.render
        = some (toArms, fromArms) ∧
      ∃ s ∈ ["RED", "_red"], ∃ c, outcome? fromArms (.text s) = some (.just c) ∧
        outcome? toArms (.constructor c) ≠ some (.text s))
  := by
  constructor
  · obtain ⟨toArms, fromArms, hread, hsilent, -⟩ :=
      conversions_inverse ⟨"Tint", ["RED", "R_ED"]⟩ (by decide)
    obtain ⟨_, -, hconstructors, hinverse⟩ := hsilent (by decide)
    use toArms, fromArms, hread
    rw [hconstructors] at hinverse
    apply hinverse
  · obtain ⟨toArms, fromArms, hread, -, hshared⟩ :=
      conversions_inverse ⟨"Tint", ["RED", "_red"]⟩ (by decide)
    use toArms, fromArms, hread
    apply (hshared "RED" (by decide) "_red" (by decide) (by decide) (by decide)).2

end ElmSchema
