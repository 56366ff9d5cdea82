import ElmSchema.Proofs.Code.Lines

/-!
# References to decoders

A module declares one decoder for each enum and one for each object type of its schema, by a
line with the name and the type of the decoder, and none for an input type. So the decoder
that the line of a field refers to is declared exactly if its type is an enum or an object type
of the schema. The decoder of an enum refers to the function from texts, which is declared as
well.

No other line of a module looks like the declaration of a decoder. Such a line starts with
`decode`, and each character that is not in its fixed parts occurs an even number of times.
-/

namespace ElmSchema

open Document (isName not_mem_of_isName)
open Text (filledLines linesOf)

/-! ### Declarations of decoders -/

/-- The first line of the decoder of a type. -/
def decoderLine (typeName : String) : String :=
  decoderName typeName ++ " : Decoder " ++ typeName

/-- The type whose decoder a line declares. The name of the type is the last part of the line,
and occurs twice in it. -/
def decodedType? (line : List Char) : Option String :=
  let typeName := String.ofList (line.drop (line.length - (line.length - 17) / 2))
  if line = (decoderLine typeName).toList then some typeName else none

theorem toList_decoderLine (typeName : String) :
  (decoderLine typeName).toList
    = "decode".toList ++ typeName.toList ++ " : Decoder ".toList ++ typeName.toList
  := by
  simp [decoderLine, decoderName]

/-- A line declares the decoder of a type exactly if it is the first line of that decoder. -/
theorem decodedType?_eq_some_iff {line : List Char} {typeName : String} :
  decodedType? line = some typeName ↔ line = (decoderLine typeName).toList
  := by
  constructor
  · intro h
    simp only [decodedType?] at h
    split at h
    · rename_i hline
      rwa [← Option.some.inj h]
    · simp at h
  · rintro rfl
    have hname : (decoderLine typeName).toList.drop ((decoderLine typeName).toList.length -
        ((decoderLine typeName).toList.length - 17) / 2) = typeName.toList := by
      rw [toList_decoderLine]
      apply List.drop_left'
      simp
      omega
    simp [decodedType?, hname]

theorem decodedType?_eq_none_of_head {line : List Char} (h : line.head? ≠ some 'd') :
  decodedType? line = none
  := by
  rw [Option.eq_none_iff_forall_ne_some]
  intro typeName hsome
  apply h
  rw [decodedType?_eq_some_iff.mp hsome, toList_decoderLine]
  rfl

/-- What is not in the fixed parts of the line occurs an even number of times. -/
theorem decodedType?_eq_none_of_odd
    {line : List Char} {c : Char} (hc : c ∉ "decode : Decoder ".toList)
    (hodd : line.count c % 2 = 1) :
  decodedType? line = none
  := by
  rw [Option.eq_none_iff_forall_ne_some]
  intro typeName hsome
  have hdecode : "decode".toList.count c = 0 := by
    apply List.count_eq_zero_of_not_mem
    intro hmem
    apply hc
    simp_all
  have hcolon : " : Decoder ".toList.count c = 0 := by
    apply List.count_eq_zero_of_not_mem
    intro hmem
    apply hc
    simp_all
  rw [decodedType?_eq_some_iff.mp hsome, toList_decoderLine] at hodd
  simp only [List.count_append, hdecode, hcolon] at hodd
  omega

/-! ### Lines of declarations -/

/-- Of the first two lines of a decoder, the first one declares it. -/
theorem decodedType?_decoderHead {typeName : String} (h : isName typeName) :
  decodedType? (decoderName typeName ++ " : Decoder " ++ typeName).toList = some typeName ∧
    decodedType? (decoderName typeName ++ " =").toList = none
  := by
  constructor
  · exact decodedType?_eq_some_iff.mpr rfl
  · have hequals : typeName.toList.count '=' = 0 :=
      List.count_eq_zero_of_not_mem (not_mem_of_isName h (by decide))
    apply decodedType?_eq_none_of_odd (c := '=') (by decide)
    simp [decoderName, hequals]

section

variable {e : EnumDef} (h : ∀ n ∈ e.names, isName n)
include h

theorem filterMap_decodedType?_union :
  (filledLines e.union.render).filterMap decodedType? = []
  := by
  rw [EnumDef.filledLines_union h, List.filterMap_cons, decodedType?_eq_none_of_head]
  · rfl
  · rw [toList_render_union]
    simp

theorem filterMap_decodedType?_conversions :
  (filledLines e.conversions.render).filterMap decodedType? = []
  := by
  obtain ⟨hname, -⟩ := EnumDef.forall_names_iff.mp h
  have harm : ∀ pattern result, ∀ line ∈ armLines pattern result,
      decodedType? line.toList = none := by
    intro pattern result line hline
    apply decodedType?_eq_none_of_head
    rw [head?_armLines hline]
    decide
  have harms : ∀ f g : String → String, ∀ line ∈ e.values.flatMap fun v => armLines (f v) (g v),
      decodedType? line.toList = none := by
    intro f g line hline
    obtain ⟨v, -, hline⟩ := List.mem_flatMap.mp hline
    exact harm _ _ line hline
  have hhead : ∀ function signature : String, (∀ c ∈ function.toList, c.isAlphanum) →
      signature.toList.count '>' = 1 → ∀ line ∈ functionHead function signature,
      decodedType? line.toList = none := by
    intro function signature hfunction hsignature line hline
    have hcount : ∀ c : Char, c.isAlphanum = false → function.toList.count c = 0 := by
      intro c hc
      apply List.count_eq_zero_of_not_mem
      intro hmem
      simp [hfunction c hmem] at hc
    simp only [functionHead, List.mem_cons, List.not_mem_nil, or_false] at hline
    rcases hline with rfl | rfl | rfl
    · apply decodedType?_eq_none_of_odd (c := '>') (by decide)
      simp [hcount '>' (by decide), hsignature]
    · apply decodedType?_eq_none_of_odd (c := '=') (by decide)
      simp [hcount '=' (by decide)]
    · apply decodedType?_eq_none_of_head
      simp
  have harrow : e.name.toList.count '>' = 0 :=
    List.count_eq_zero_of_not_mem (not_mem_of_isName hname (by decide))
  rw [EnumDef.filledLines_conversions h, List.filterMap_eq_nil_iff, List.forall_mem_map]
  simp only [List.forall_mem_append]
  refine ⟨⟨⟨⟨?_, harms _ _⟩, ?_⟩, harms _ _⟩, harm _ _⟩
  · apply hhead _ _ fun _ => isAlphanum_of_mem_toStringName
    simp [harrow]
  · apply hhead _ _ fun _ => isAlphanum_of_mem_fromStringName
    simp [harrow]

theorem filterMap_decodedType?_enumDecoder :
  (filledLines e.decoder.render).filterMap decodedType? = [e.name]
  := by
  obtain ⟨hname, -⟩ := EnumDef.forall_names_iff.mp h
  have hthird : decodedType? ("    decodeString " ++ fromStringName e.name).toList = none := by
    apply decodedType?_eq_none_of_head
    simp
  rw [EnumDef.filledLines_decoder h, EnumDef.linesOf_decoder h]
  simp only [List.filterMap_cons, decodedType?_decoderHead hname, hthird, List.filterMap_nil]

end

section

variable {r : RecordDef} (h : ∀ n ∈ r.names, isName n)
include h

theorem filterMap_decodedType?_record :
  (filledLines r.record.render).filterMap decodedType? = []
  := by
  rw [RecordDef.filledLines_record h, List.filterMap_eq_nil_iff, List.forall_mem_map, lines_record]
  intro line hline
  apply decodedType?_eq_none_of_head
  rcases List.mem_cons.mp hline with rfl | hline
  · simp
  · rw [head?_recordLines hline]
    decide

theorem filterMap_decodedType?_recordDecoder :
  (filledLines r.decoder.render).filterMap decodedType? = [r.name]
  := by
  obtain ⟨hname, -⟩ := RecordDef.forall_names_iff.mp h
  have hseed : decodedType? ("    Decode.succeed " ++ r.seed.render).toList = none := by
    apply decodedType?_eq_none_of_head
    simp
  have hfields : (r.fields.map fun f => (requiredLine (f.name, f.type.decoder)).toList).filterMap
      decodedType? = [] := by
    rw [List.filterMap_eq_nil_iff, List.forall_mem_map]
    intro f _
    apply decodedType?_eq_none_of_head
    rw [requiredLine_mk]
    simp
  rw [RecordDef.filledLines_decoder h, lines_decoder]
  simp only [List.map_cons, List.map_map, Function.comp_def, List.filterMap_cons,
    decodedType?_decoderHead hname, hseed, hfields]

end

theorem filterMap_decodedType?_textDecoder :
  (filledLines Declaration.textDecoder.render).filterMap decodedType? = []
  := by
  rw [filledLines_textDecoder]
  decide

/-! ### Declared decoders -/

/-- The decoders that a module declares are those of the enums and those of the object types
of its schema, in order. -/
theorem Schema.filterMap_decodedType?
    {s : Schema} {name : String} (hname : '\n' ∉ name.toList) (h : ∀ n ∈ s.names, isName n)
    (extras : Extras) :
  (linesOf (s.toModule name extras).render).filterMap decodedType?
    = s.enums.map EnumDef.name ++ s.objects.map RecordDef.name
  := by
  obtain ⟨henums, hobjects, hinputs⟩ := forall_names_iff.mp h
  have hreader : ∀ line : List Char, line.head? = some 'm' ∨ line.head? = some 'i' ∨
      line.head? = some '-' → decodedType? line = none := by
    intro line hline
    apply decodedType?_eq_none_of_head
    rcases hline with h | h | h <;> simp [h]
  have hinputs : (if extras.withInputs then s.inputs else []).flatMap
      (fun r => (filledLines r.record.render).filterMap decodedType?) = [] := by
    rw [List.flatMap_eq_nil_iff]
    split
    · exact fun r hr => filterMap_decodedType?_record (hinputs r hr)
    · simp
  rw [Text.filterMap_linesOf rfl, s.filterMap_filledLines hname extras hreader, flatMap_sections,
    hinputs, filterMap_decodedType?_textDecoder,
    List.flatMap_eq_nil_iff.mpr fun e he => filterMap_decodedType?_union (henums e he),
    List.flatMap_eq_nil_iff.mpr fun r hr => filterMap_decodedType?_record (hobjects r hr),
    List.flatMap_eq_nil_iff.mpr fun e he => filterMap_decodedType?_conversions (henums e he),
    List.flatMap_congr fun e he => filterMap_decodedType?_enumDecoder (henums e he),
    List.flatMap_congr fun r hr => filterMap_decodedType?_recordDecoder (hobjects r hr)]
  simp [← List.map_eq_flatMap]

/-- The decoder of a type is declared exactly if the type is an enum or an object type of the
schema. -/
theorem Schema.decoderLine_mem_iff
    {s : Schema} {name : String} (hname : '\n' ∉ name.toList) (h : ∀ n ∈ s.names, isName n)
    (extras : Extras) (typeName : String) :
  (decoderLine typeName).toList ∈ linesOf (s.toModule name extras).render ↔
    typeName ∈ s.enums.map EnumDef.name ∨ typeName ∈ s.objects.map RecordDef.name
  := by
  rw [← List.mem_append, ← filterMap_decodedType? hname h extras, List.mem_filterMap]
  constructor
  · intro hmem
    use (decoderLine typeName).toList, hmem
    exact decodedType?_eq_some_iff.mpr rfl
  · rintro ⟨line, hline, hdecoded⟩
    rwa [← decodedType?_eq_some_iff.mp hdecoded]

/-! ### References -/

/-- The types whose decoders come with the language. -/
def builtInTypes : List String :=
  ["Boolean", "String", "Int", "Float"]

/-- The decoder of a field refers to the decoder named after its type, alone or as the decoder
of list elements or of optional values. -/
theorem FieldType.exists_render_decoder {t : FieldType} (h : t.typeName ∉ builtInTypes) :
  ∃ opening closing, t.decoder.render = opening ++ decoderName t.typeName ++ closing ∧
    (opening, closing) ∈ [("", ""), ("(Decode.list ", ")"), ("(Decode.nullable ", ")")]
  := by
  have hbase : baseDecoder t.typeName = .declared t.typeName := by
    simp only [builtInTypes, List.mem_cons, List.not_mem_nil, or_false, not_or] at h
    simp [baseDecoder, h]
  rw [decoder, hbase]
  split
  · use "(Decode.list ", ")"
    rw [Decoder.render_list, Decoder.render_declared]
    simp
  · split
    · use "", ""
      rw [Decoder.render_declared]
      simp
    · use "(Decode.nullable ", ")"
      rw [Decoder.render_nullable, Decoder.render_declared]
      simp

section

variable {s : Schema} (name : String) (extras : Extras)

/-- The line of each field of an object type stands in the module. -/
theorem Schema.requiredLine_mem
    {r : RecordDef} (hr : r ∈ s.objects) (h : ∀ n ∈ r.names, isName n) {f : FieldDef}
    (hf : f ∈ r.fields) :
  (requiredLine (f.name, f.type.decoder)).toList ∈ linesOf (s.toModule name extras).render
  := by
  have hpart : ⟨"TYPES DECODERS", s.objects.map RecordDef.decoder⟩ ∈ s.sections extras := by
    simp [sections]
  have hline : (requiredLine (f.name, f.type.decoder)).toList ∈ filledLines r.decoder.render := by
    rw [RecordDef.filledLines_decoder h, lines_decoder]
    apply List.mem_map_of_mem
    simp only [List.mem_cons, List.mem_map]
    exact .inr (.inr (.inr ⟨f, hf, rfl⟩))
  have hinfix : linesOf r.decoder.render <:+: linesOf (s.toModule name extras).render :=
    linesOf_render_infix hpart (List.mem_map_of_mem hr)
  exact hinfix.subset (Text.mem_linesOf hline)

/-- The lines of the decoder of an enum stand together in the module. -/
theorem Schema.enumDecoder_infix
    {e : EnumDef} (he : e ∈ s.enums) (h : ∀ n ∈ e.names, isName n) :
  [(decoderLine e.name).toList, (decoderName e.name ++ " =").toList,
      ("    decodeString " ++ fromStringName e.name).toList]
    <:+: linesOf (s.toModule name extras).render
  := by
  have hpart : ⟨"ENUMS DECODERS", s.enums.map EnumDef.decoder⟩ ∈ s.sections extras := by
    simp [sections]
  rw [decoderLine, ← EnumDef.linesOf_decoder h]
  exact linesOf_render_infix hpart (List.mem_map_of_mem he)

/-- The signature of the function from texts to an enum stands in the module. -/
theorem Schema.fromString_signature_mem
    {e : EnumDef} (he : e ∈ s.enums) (h : ∀ n ∈ e.names, isName n) :
  (fromStringName e.name ++ " : " ++ ("String -> Maybe " ++ e.name)).toList ∈
    linesOf (s.toModule name extras).render
  := by
  have hpart : ⟨"ENUMS STRING CONVERSIONS", s.enums.map EnumDef.conversions⟩ ∈
      s.sections extras := by
    simp [sections]
  have hline : (fromStringName e.name ++ " : " ++ ("String -> Maybe " ++ e.name)).toList ∈
      filledLines e.conversions.render := by
    rw [EnumDef.filledLines_conversions h]
    apply List.mem_map_of_mem
    simp [functionHead]
  have hinfix : linesOf e.conversions.render <:+: linesOf (s.toModule name extras).render :=
    linesOf_render_infix hpart (List.mem_map_of_mem he)
  exact hinfix.subset (Text.mem_linesOf hline)

end

/-- The lines of a module that declare a decoder are one for each enum and then one for each
object type of its schema, in order, and none for an input type. So the decoder that the line
of a field refers to is declared in the module exactly if the type of the field is an enum or
an object type. The decoder of each enum refers to the function from texts, whose signature
stands in the module too. -/
theorem decoder_references_resolve
    (s : Schema) (name : String) (extras : Extras) (hname : '\n' ∉ name.toList)
    (h : ∀ n ∈ s.names, isName n) :
  let lines := linesOf (s.toModule name extras).render
  lines.filterMap decodedType? = s.enums.map EnumDef.name ++ s.objects.map RecordDef.name ∧
    (∀ r ∈ s.objects, ∀ f ∈ r.fields, f.type.typeName ∉ builtInTypes →
      (∃ opening closing,
        ("        |> required \"" ++ f.name ++ "\" " ++ opening ++ decoderName f.type.typeName ++
            closing).toList ∈ lines ∧
          (opening, closing) ∈ [("", ""), ("(Decode.list ", ")"), ("(Decode.nullable ", ")")]) ∧
      ((decoderLine f.type.typeName).toList ∈ lines ↔
        f.type.typeName ∈ s.enums.map EnumDef.name ∨
          f.type.typeName ∈ s.objects.map RecordDef.name)) ∧
    ∀ e ∈ s.enums,
      [(decoderLine e.name).toList, (decoderName e.name ++ " =").toList,
        ("    decodeString " ++ Name.camel e.name ++ "FromString").toList] <:+: lines ∧
      (Name.camel e.name ++ "FromString : String -> Maybe " ++ e.name).toList ∈ lines
  := by
  obtain ⟨henums, hobjects, -⟩ := Schema.forall_names_iff.mp h
  intro lines
  refine ⟨Schema.filterMap_decodedType? hname h extras, ?_, ?_⟩
  · intro r hr f hf htype
    refine ⟨?_, Schema.decoderLine_mem_iff hname h extras _⟩
    obtain ⟨opening, closing, hrender, hmem⟩ := FieldType.exists_render_decoder htype
    refine ⟨opening, closing, ?_, hmem⟩
    have htext : requiredLine (f.name, f.type.decoder) = "        |> required \"" ++ f.name ++
        "\" " ++ opening ++ decoderName f.type.typeName ++ closing := by
      rw [requiredLine_mk, hrender]
      simp [inQuotes, ← String.toList_inj]
    rw [← htext]
    exact Schema.requiredLine_mem name extras hr (hobjects r hr) hf
  · intro e he
    have hbody : "    decodeString " ++ fromStringName e.name
        = "    decodeString " ++ Name.camel e.name ++ "FromString" := by
      rw [fromStringName, String.append_assoc]
    have hsignature : fromStringName e.name ++ " : " ++ ("String -> Maybe " ++ e.name)
        = Name.camel e.name ++ "FromString : String -> Maybe " ++ e.name := by
      simp [fromStringName, ← String.toList_inj]
    rw [← hbody, ← hsignature]
    use Schema.enumDecoder_infix name extras he (henums e he)
    exact Schema.fromString_signature_mem name extras he (henums e he)

/-- A schema with an input type, a field whose type is not in it, and an enum whose functions
have names that start as those of decoders do. -/
def teamSchema : Schema where
  enums := [⟨"decode_role", ["OWNER"]⟩, ⟨"Empty", []⟩]
  objects := [⟨"User", [⟨"role", ⟨"decode_role", true, false⟩⟩, ⟨"team", ⟨"Team", false, true⟩⟩]⟩]
  inputs := [⟨"Filter", [⟨"name", ⟨"String", false, false⟩⟩]⟩]

/-- The module of this schema declares three decoders. The decoder of the one field is
declared, and that of the other is not. -/
theorem decoder_references_resolve_team :
  let lines := linesOf (teamSchema.toModule "Team : Decoder Team" ⟨true, true⟩).render
  '\n' ∉ "Team : Decoder Team".toList ∧ (∀ n ∈ teamSchema.names, isName n) ∧
    lines.filterMap decodedType? = ["decode_role", "Empty", "User"] ∧
    (decoderLine "decode_role").toList ∈ lines ∧ (decoderLine "Team").toList ∉ lines ∧
    "decodeRoleFromString : String -> Maybe decode_role".toList ∈ lines
  := by
  have hname : '\n' ∉ "Team : Decoder Team".toList := by decide
  have hnames : ∀ n ∈ teamSchema.names, isName n := by decide
  obtain ⟨hlines, hfields, henums⟩ :=
    decoder_references_resolve teamSchema "Team : Decoder Team" ⟨true, true⟩ hname hnames
  have hrole := hfields ⟨"User", _⟩ List.mem_cons_self ⟨"role", ⟨"decode_role", true, false⟩⟩
    (by simp) (by decide)
  have hteam := hfields ⟨"User", _⟩ List.mem_cons_self ⟨"team", ⟨"Team", false, true⟩⟩
    (by simp) (by decide)
  have hsignature := (henums ⟨"decode_role", ["OWNER"]⟩ List.mem_cons_self).2
  refine ⟨hname, hnames, hlines, hrole.2.mpr (by decide), ?_, ?_⟩
  · rw [hteam.2]
    decide
  · exact hsignature

end ElmSchema
