import ElmSchema.Proofs.Code.Reading

/-!
# Types of decoders

The decoder of a field decodes values of the Elm type of the field. For a list neither of
them allows for a missing value, at any level.

Types and decoders are also read from the words of their texts. The reader knows the types
and decoders of fields: a name, or a list or optional value of what a name stands for.
-/

namespace ElmSchema

open Document (isName)

/-! ### Texts of decoders -/

theorem Decoder.render_declared (typeName : String) :
  (Decoder.declared typeName).render = decoderName typeName
  := rfl

theorem Decoder.render_list (d : Decoder) :
  (Decoder.list d).render = "(Decode.list " ++ d.render ++ ")"
  := rfl

theorem Decoder.render_nullable (d : Decoder) :
  (Decoder.nullable d).render = "(Decode.nullable " ++ d.render ++ ")"
  := rfl

/-! ### Typing -/

/-- A decoder gives values of an Elm type. A declared decoder belongs to the type that it is
named after. -/
inductive Decoder.HasType : Decoder → ElmType → Prop where
  | bool : HasType .bool (.named "Bool")
  | string : HasType .string (.named "String")
  | int : HasType .int (.named "Int")
  | float : HasType .float (.named "Float")
  | declared (typeName : String) : HasType (.declared typeName) (.named typeName)
  | list {d : Decoder} {t : ElmType} : HasType d t → HasType (.list d) (.list t)
  | nullable {d : Decoder} {t : ElmType} : HasType d t → HasType (.nullable d) (.maybe t)

/-- Whether a type allows for a missing value at some level. -/
def ElmType.hasMaybe : ElmType → Bool
  | .named _ => false
  | .list element => element.hasMaybe
  | .maybe _ => true

/-- Whether a decoder allows for a missing value at some level. -/
def Decoder.hasNullable : Decoder → Bool
  | .list element => element.hasNullable
  | .nullable _ => true
  | _ => false

namespace FieldType

/-- The decoder of a single value gives values of its type. -/
theorem hasType_base (typeName : String) :
  (baseDecoder typeName).HasType (baseType typeName)
  := by
  by_cases hboolean : typeName = "Boolean"
  · obtain rfl := hboolean
    apply Decoder.HasType.bool
  · have htype : baseType typeName = .named typeName := by simp [baseType, hboolean]
    rw [htype]
    by_cases hstring : typeName = "String"
    · obtain rfl := hstring
      apply Decoder.HasType.string
    · by_cases hint : typeName = "Int"
      · obtain rfl := hint
        apply Decoder.HasType.int
      · by_cases hfloat : typeName = "Float"
        · obtain rfl := hfloat
          apply Decoder.HasType.float
        · have hdecoder : baseDecoder typeName = .declared typeName := by
            simp [baseDecoder, hboolean, hstring, hint, hfloat]
          rw [hdecoder]
          apply Decoder.HasType.declared

/-- The decoder of a field gives values of the type of the field. -/
theorem hasType (t : FieldType) :
  t.decoder.HasType t.elmType
  := by
  rw [decoder, elmType]
  split
  · apply Decoder.HasType.list (hasType_base t.typeName)
  · split
    · apply hasType_base
    · apply Decoder.HasType.nullable (hasType_base t.typeName)

theorem hasNullable_baseDecoder (typeName : String) :
  (baseDecoder typeName).hasNullable = false
  := by
  unfold baseDecoder
  split_ifs <;> rfl

/-- A list has no missing values, and neither has its decoder. -/
theorem not_missing_of_isList {t : FieldType} (h : t.isList) :
  t.elmType.hasMaybe = false ∧ t.decoder.hasNullable = false
  := by
  rw [elmType, decoder, if_pos h, if_pos h]
  use rfl
  apply hasNullable_baseDecoder

end FieldType

/-! ### Reading -/

/-- The Elm type that words write. -/
def ElmType.ofWords? : List (List Char) → Option ElmType
  | [word] => (readName? word).map .named
  | [wrapper, word] => do
    let element ← readName? word
    if wrapper = "List".toList then some (.list (.named element))
    else if wrapper = "Maybe".toList then some (.maybe (.named element))
    else none
  | _ => none

/-- The decoder without an argument that a word is. -/
def Decoder.ofWord? (word : List Char) : Option Decoder :=
  if word = "Decode.bool".toList then some .bool
  else if word = "Decode.string".toList then some .string
  else if word = "Decode.int".toList then some .int
  else if word = "Decode.float".toList then some .float
  else do
    let name ← "decode".toList.isPrefixOf? word
    (readName? name).map .declared

/-- The decoder that words write. -/
def Decoder.ofWords? : List (List Char) → Option Decoder
  | [word] => ofWord? word
  | [wrapper, word] => do
    let element ← ofWord? (← [')'].isSuffixOf? word)
    if wrapper = "(Decode.list".toList then some (.list element)
    else if wrapper = "(Decode.nullable".toList then some (.nullable element)
    else none
  | _ => none

namespace FieldType

/-- The type of a single value is a name. -/
theorem exists_baseType {typeName : String} (h : isName typeName) :
  ∃ name, isName name ∧ baseType typeName = .named name
  := by
  refine ⟨_, ?_, rfl⟩
  split
  · decide
  · apply h

/-- The type of a field is read from the words of its text. -/
theorem ofWords?_elmType {t : FieldType} (h : isName t.typeName) :
  ElmType.ofWords? (Text.wordsOf t.elmType.render) = some t.elmType
  := by
  obtain ⟨name, hname, hbase⟩ := exists_baseType h
  have hwords : Text.wordsOf name = [name.toList] :=
    Text.wordsOf_of_not_mem (blank_not_mem_name hname)
  rw [elmType, hbase]
  split
  · have hlist : Text.wordsOf (ElmType.list (.named name)).render
        = ["List".toList, name.toList] := by
      rw [← hwords]
      apply Text.wordsOf_eq_cons
      · simp [ElmType.render]
      · decide
    simp [hlist, ElmType.ofWords?, readName?_of_isName hname]
  · split
    · simp [ElmType.render, hwords, ElmType.ofWords?, readName?_of_isName hname]
    · have hmaybe : Text.wordsOf (ElmType.maybe (.named name)).render
          = ["Maybe".toList, name.toList] := by
        rw [← hwords]
        apply Text.wordsOf_eq_cons
        · simp [ElmType.render]
        · decide
      simp [hmaybe, ElmType.ofWords?, readName?_of_isName hname]

theorem newline_not_mem_elmType {t : FieldType} (h : isName t.typeName) :
  '\n' ∉ t.elmType.render.toList
  := by
  obtain ⟨name, hname, hbase⟩ := exists_baseType h
  have hnewline := newline_not_mem_name hname
  rw [elmType, hbase]
  split
  · simpa [ElmType.render] using hnewline
  · split
    · simpa [ElmType.render] using hnewline
    · simpa [ElmType.render] using hnewline

/-- The decoder that belongs to a type is read from its name. -/
theorem ofWord?_decoderName {typeName : String} (h : isName typeName) :
  Decoder.ofWord? (decoderName typeName).toList = some (.declared typeName)
  := by
  have hprefix : "decode".toList.isPrefixOf? (decoderName typeName).toList
      = some typeName.toList := by
    rw [decoderName, String.toList_append, List.isPrefixOf?_eq_some_iff_append_eq]
  have hhead : (decoderName typeName).toList.head? = some 'd' := by
    simp [decoderName]
  have hne : ∀ {word : String}, word.toList.head? ≠ some 'd' →
      (decoderName typeName).toList ≠ word.toList := by
    intro word hword heq
    apply hword
    rw [← heq, hhead]
  rw [Decoder.ofWord?, if_neg (hne (by decide)), if_neg (hne (by decide)),
    if_neg (hne (by decide)), if_neg (hne (by decide)), hprefix]
  simp [readName?_of_isName h]

/-- The decoder of a single value is a word, and read from it. -/
theorem ofWord?_baseDecoder {typeName : String} (h : isName typeName) :
  ' ' ∉ (baseDecoder typeName).render.toList ∧
    Decoder.ofWord? (baseDecoder typeName).render.toList = some (baseDecoder typeName)
  := by
  unfold baseDecoder
  split_ifs
  · decide
  · decide
  · decide
  · decide
  · constructor
    · simpa [Decoder.render_declared, decoderName] using blank_not_mem_name h
    · apply ofWord?_decoderName h

/-- A decoder with an argument is read from its words. -/
theorem ofWords?_wrapped
    {wrapper argument word : List Char} {d : Decoder} (hargument : argument = word ++ [')'])
    (hword : Decoder.ofWord? word = some d) :
  Decoder.ofWords? [wrapper, argument]
    = if wrapper = "(Decode.list".toList then some (.list d)
      else if wrapper = "(Decode.nullable".toList then some (.nullable d)
      else none
  := by
  have hsuffix : [')'].isSuffixOf? argument = some word := by
    rw [List.isSuffixOf?_eq_some_iff_append_eq, hargument]
  rw [Decoder.ofWords?, hsuffix]
  simp only [Option.bind_eq_bind, Option.bind_some, hword]

/-- The decoder of a field is read from the words of its text. -/
theorem ofWords?_decoder {t : FieldType} (h : isName t.typeName) :
  Decoder.ofWords? (Text.wordsOf t.decoder.render) = some t.decoder
  := by
  obtain ⟨hblank, hword⟩ := ofWord?_baseDecoder h
  have hwords : Text.wordsOf ((baseDecoder t.typeName).render ++ ")")
      = [(baseDecoder t.typeName).render.toList ++ [')']] := by
    rw [Text.wordsOf_of_not_mem]
    · simp
    · simpa using hblank
  rw [decoder]
  split
  · have hlist : Text.wordsOf (Decoder.list (baseDecoder t.typeName)).render
        = "(Decode.list".toList :: Text.wordsOf ((baseDecoder t.typeName).render ++ ")") := by
      apply Text.wordsOf_eq_cons
      · simp [Decoder.render_list]
      · decide
    rw [hlist, hwords, ofWords?_wrapped rfl hword]
    rfl
  · split
    · rw [Text.wordsOf_of_not_mem hblank]
      apply hword
    · have hnullable : Text.wordsOf (Decoder.nullable (baseDecoder t.typeName)).render
          = "(Decode.nullable".toList :: Text.wordsOf ((baseDecoder t.typeName).render ++ ")") := by
        apply Text.wordsOf_eq_cons
        · simp [Decoder.render_nullable]
        · decide
      rw [hnullable, hwords, ofWords?_wrapped rfl hword]
      rfl

/-- The text of the decoder of a single value has no newline and does not end with a
blank. -/
theorem render_baseDecoder {typeName : String} (h : isName typeName) :
  '\n' ∉ (baseDecoder typeName).render.toList ∧ Text.isFilled (baseDecoder typeName).render
  := by
  unfold baseDecoder
  split_ifs
  · decide
  · decide
  · decide
  · decide
  · constructor
    · simpa [Decoder.render_declared, decoderName] using newline_not_mem_name h
    · apply Text.isFilled_append _ (isFilled_of_isName h)

/-- The text of the decoder of a field has no newline and does not end with a blank. -/
theorem render_decoder {t : FieldType} (h : isName t.typeName) :
  '\n' ∉ t.decoder.render.toList ∧ Text.isFilled t.decoder.render
  := by
  obtain ⟨hnewline, hfilled⟩ := render_baseDecoder h
  rw [decoder]
  split
  · constructor
    · simpa [Decoder.render_list] using hnewline
    · apply Text.isFilled_append
      decide
  · split
    · use hnewline
    · constructor
      · simpa [Decoder.render_nullable] using hnewline
      · apply Text.isFilled_append
        decide

end FieldType

end ElmSchema
