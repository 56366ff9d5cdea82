import ElmSchema.Proofs.Code.Marks

/-!
# What the text of a module determines

The text of a module determines the module name, the enums and the object types of its schema,
except that it does not tell whether the values of a list are required. Of the input types, if
they are in the module, it determines what their record types say. Nothing else has an
influence on the text.
-/

namespace ElmSchema

open Document (isName)
open Text (filledLines)

/-! ### What is determined -/

/-- The same type, in which the values of a list count as required. -/
def FieldType.relaxed (t : FieldType) : FieldType :=
  { t with isRequired := t.isRequired || t.isList }

/-- The same object type, in which the values of lists count as required. -/
def RecordDef.relaxed (r : RecordDef) : RecordDef :=
  { r with fields := r.fields.map fun f => { f with type := f.type.relaxed } }

/-- The name of an input type, and for each field its name in camel case and the text of its
Elm type. -/
def RecordDef.outline (r : RecordDef) : String × List (String × String) :=
  (r.name, r.fields.map fun f => (Name.camel f.name, f.type.elmType.render))

theorem FieldType.baseDecoder_injective :
  Function.Injective baseDecoder
  := by
  intro n n' heq
  unfold baseDecoder at heq
  split_ifs at heq <;> simp_all

theorem FieldType.baseDecoder_ne (typeName : String) (d : Decoder) :
  baseDecoder typeName ≠ .list d ∧ baseDecoder typeName ≠ .nullable d
  := by
  unfold baseDecoder
  split_ifs <;> simp

/-- The decoder of a field determines its type, up to whether the values of a list are
required. -/
theorem FieldType.relaxed_eq_of_decoder {t t' : FieldType} (h : t.decoder = t'.decoder) :
  t.relaxed = t'.relaxed
  := by
  obtain ⟨typeName, isRequired, isList⟩ := t
  obtain ⟨typeName', isRequired', isList'⟩ := t'
  have hne := baseDecoder_ne typeName
  have hne' := baseDecoder_ne typeName'
  cases isList <;> cases isList' <;> cases isRequired <;> cases isRequired' <;>
    simp_all [decoder, relaxed, baseDecoder_injective.eq_iff, eq_comm]

theorem FieldType.decoder_relaxed (t : FieldType) :
  t.relaxed.decoder = t.decoder
  := by
  obtain ⟨typeName, isRequired, isList⟩ := t
  cases isList <;> simp [relaxed, decoder]

theorem FieldType.elmType_relaxed (t : FieldType) :
  t.relaxed.elmType = t.elmType
  := by
  obtain ⟨typeName, isRequired, isList⟩ := t
  cases isList <;> simp [relaxed, elmType]

theorem RecordDef.record_relaxed (r : RecordDef) :
  r.relaxed.record = r.record
  := by
  simp [record, relaxed, FieldType.elmType_relaxed, Function.comp_def]

theorem RecordDef.decoder_relaxed (r : RecordDef) :
  r.relaxed.decoder = r.decoder
  := by
  simp [decoder, relaxed, FieldType.decoder_relaxed, Function.comp_def]

/-- If one view of elements determines another one, it does so for lists of elements. -/
theorem map_eq_map_of_determined
    {α β γ : Type} {f : α → β} {g : α → γ} (hdetermined : ∀ a b, f a = f b → g a = g b) :
  ∀ {xs ys : List α}, xs.map f = ys.map f → xs.map g = ys.map g
  | [], [], _ => rfl
  | [], y :: ys, h => by simp at h
  | x :: xs, [], h => by simp at h
  | x :: xs, y :: ys, h => by
      obtain ⟨hx, hxs⟩ := List.cons.inj h
      rw [List.map_cons, List.map_cons, hdetermined x y hx,
        map_eq_map_of_determined hdetermined hxs]

/-- The name and the fields of a decoder determine the object type, up to whether the values
of lists are required. -/
theorem RecordDef.relaxed_eq_of_decoderFields
    {r r' : RecordDef} (h : (r.name, r.decoderFields) = (r'.name, r'.decoderFields)) :
  r.relaxed = r'.relaxed
  := by
  obtain ⟨hname, hfields⟩ := Prod.mk.inj h
  have hrelaxed : r.fields.map (fun f => { f with type := f.type.relaxed })
      = r'.fields.map (fun f => { f with type := f.type.relaxed }) := by
    apply map_eq_map_of_determined _ hfields
    intro f f' heq
    obtain ⟨hf, hdecoder⟩ := Prod.mk.inj heq
    simp [hf, FieldType.relaxed_eq_of_decoder hdecoder]
  rw [relaxed, relaxed, hname, hrelaxed]

theorem RecordDef.outline_eq_of_recordFields
    {r r' : RecordDef} (h : (r.name, r.recordFields) = (r'.name, r'.recordFields)) :
  r.outline = r'.outline
  := by
  obtain ⟨hname, hfields⟩ := Prod.mk.inj h
  rw [outline, outline, hname, Prod.mk.injEq]
  use rfl
  apply map_eq_map_of_determined _ hfields
  intro f f' heq
  obtain ⟨hf, htype⟩ := Prod.mk.inj heq
  rw [hf, htype]

/-- The outline of an input type determines the text of its record type. -/
theorem RecordDef.render_record_eq_of_outline {r r' : RecordDef} (h : r.outline = r'.outline) :
  r.record.render = r'.record.render
  := by
  obtain ⟨hname, hfields⟩ := Prod.mk.inj h
  have hlines : ∀ opening, r.recordFields.map (fieldLine opening)
      = r'.recordFields.map (fieldLine opening) := by
    intro opening
    rw [recordFields, recordFields, List.map_map, List.map_map]
    apply map_eq_map_of_determined _ hfields
    intro f f' heq
    obtain ⟨hf, htype⟩ := Prod.mk.inj heq
    simp only [Function.comp_apply, fieldLine, hf, htype]
  have hrecord : recordLines r.recordFields = recordLines r'.recordFields := by
    have hfirst := hlines "\x7b"
    have hnext := hlines ","
    cases hr : r.recordFields with
    | nil =>
        cases hr' : r'.recordFields with
        | nil => rfl
        | cons field fields => simp [hr, hr'] at hfirst
    | cons field fields =>
        cases hr' : r'.recordFields with
        | nil => simp [hr, hr'] at hfirst
        | cons field' fields' =>
            rw [hr, hr', List.map_cons, List.map_cons] at hfirst hnext
            rw [recordLines, recordLines, (List.cons.inj hfirst).1, (List.cons.inj hnext).2]
  rw [Declaration.render, Declaration.render, lines_record, lines_record, hname, hrecord]

/-! ### Texts of sections -/

/-- The title of a section and the texts of its declarations. -/
def Section.texts (part : Section) : String × List String :=
  (part.title, part.declarations.map Declaration.render)

theorem Section.render_eq_of_texts {part part' : Section} (h : part.texts = part'.texts) :
  part.render = part'.render ∧ part.declarations.isEmpty = part'.declarations.isEmpty
  := by
  obtain ⟨htitle, htexts⟩ := Prod.mk.inj h
  constructor
  · rw [Section.render, Section.render, htitle, htexts]
  · rw [← List.isEmpty_map (f := Declaration.render), htexts, List.isEmpty_map]

/-- The texts in sections determine the text of the module. -/
theorem map_render_filter_sections :
  ∀ {sections sections' : List Section}, sections.map Section.texts = sections'.map Section.texts →
    (sections.filter fun part => !part.declarations.isEmpty).map Section.render
      = (sections'.filter fun part => !part.declarations.isEmpty).map Section.render
  | [], [], _ => rfl
  | [], part' :: rest', h => by simp at h
  | part :: rest, [], h => by simp at h
  | part :: rest, part' :: rest', h => by
      obtain ⟨hpart, hrest⟩ := List.cons.inj h
      obtain ⟨hrender, hempty⟩ := Section.render_eq_of_texts hpart
      have ih := map_render_filter_sections hrest
      rw [List.filter_cons, List.filter_cons, hempty]
      split
      · rw [List.map_cons, List.map_cons, hrender, ih]
      · exact ih

/-- The sections of schemas with equal enums, with object types that differ only in whether
the values of lists are required, and with input types of the same outlines have the same
texts. -/
theorem Schema.map_texts_sections
    {s s' : Schema} {extras : Extras} (henums : s.enums = s'.enums)
    (hobjects : s.objects.map RecordDef.relaxed = s'.objects.map RecordDef.relaxed)
    (hinputs : extras.withInputs →
      s.inputs.map RecordDef.outline = s'.inputs.map RecordDef.outline) :
  (s.sections extras).map Section.texts = (s'.sections extras).map Section.texts
  := by
  have hrecords : s.objects.map RecordDef.record = s'.objects.map RecordDef.record := by
    apply map_eq_map_of_determined _ hobjects
    intro r r' heq
    rw [← r.record_relaxed, heq, r'.record_relaxed]
  have hdecoders : s.objects.map RecordDef.decoder = s'.objects.map RecordDef.decoder := by
    apply map_eq_map_of_determined _ hobjects
    intro r r' heq
    rw [← r.decoder_relaxed, heq, r'.decoder_relaxed]
  have hinputs : (if extras.withInputs then s.inputs.map RecordDef.record else []).map
      Declaration.render
        = (if extras.withInputs then s'.inputs.map RecordDef.record else []).map
          Declaration.render := by
    split
    · rename_i hextras
      rw [List.map_map, List.map_map]
      apply map_eq_map_of_determined _ (hinputs hextras)
      exact fun r r' => RecordDef.render_record_eq_of_outline
    · rfl
  simp only [sections, List.map_cons, Section.texts, henums, hrecords, hdecoders, hinputs]

/-! ### Texts of modules -/

/-- Two modules of schemas over names have the same text exactly if their names are equal,
the enums are equal, the object types are equal up to whether the values of lists are required,
and, if the input types are in the modules, these have the same outlines. -/
theorem module_text_determines
    {name name' : String} (hname : '\n' ∉ name.toList) (hname' : '\n' ∉ name'.toList)
    {s s' : Schema} (h : ∀ n ∈ s.names, isName n) (h' : ∀ n ∈ s'.names, isName n)
    (extras : Extras) :
  (s.toModule name extras).render = (s'.toModule name' extras).render ↔
    name = name' ∧ s.enums = s'.enums ∧
      s.objects.map RecordDef.relaxed = s'.objects.map RecordDef.relaxed ∧
      (extras.withInputs →
        s.inputs.map RecordDef.outline = s'.inputs.map RecordDef.outline)
  := by
  constructor
  · intro htext
    have hhead := congrArg (fun text => (filledLines text).head?) htext
    have henums := congrArg (fun text =>
      (linesUnder "ENUMS STRING CONVERSIONS" (filledLines text)).filterMap conversionMark?) htext
    have hobjects := congrArg (fun text =>
      (linesUnder "TYPES DECODERS" (filledLines text)).filterMap decoderMark?) htext
    have hinputs := congrArg (fun text =>
      (linesUnder "INPUTS DEFINITIONS" (filledLines text)).filterMap recordMark?) htext
    rw [Schema.marks_enums hname h, Schema.marks_enums hname' h'] at henums
    rw [Schema.marks_objects hname h, Schema.marks_objects hname' h'] at hobjects
    refine ⟨?_, ?_, ?_, ?_⟩
    · rw [s.filledLines_render hname, s'.filledLines_render hname'] at hhead
      simpa [headLines, ← String.toList_inj] using hhead
    · have hinjective : Function.Injective fun e : EnumDef => (e.name, e.values) := by
        intro e e' heq
        obtain ⟨hname, hvalues⟩ := Prod.mk.inj heq
        exact (EnumDef.mk.injEq ..).mpr ⟨hname, hvalues⟩
      exact List.map_injective_iff.mpr hinjective (marksOf_injective henums)
    · exact map_eq_map_of_determined (fun r r' => RecordDef.relaxed_eq_of_decoderFields)
        (marksOf_injective hobjects)
    · intro hextras
      rw [Schema.marks_inputs hname h extras hextras, Schema.marks_inputs hname' h' extras hextras]
        at hinputs
      exact map_eq_map_of_determined (fun r r' => RecordDef.outline_eq_of_recordFields)
        (marksOf_injective hinputs)
  · rintro ⟨rfl, henums, hobjects, hinputs⟩
    have htexts := Schema.map_texts_sections henums hobjects hinputs
    rw [Module.render, Module.render, Schema.toModule, Schema.toModule]
    rw [map_render_filter_sections htexts]

/-- A schema with a list of the given mark, a value, and an input field of the given name and
type. -/
def sampleSchema (isRequired : Bool) (value field typeName : String) : Schema where
  enums := [⟨"E", [value]⟩]
  objects := [⟨"T", [⟨"xs", ⟨"Int", isRequired, true⟩⟩]⟩]
  inputs := [⟨"I", [⟨field, ⟨typeName, true, false⟩⟩]⟩]

/-- Schemas that differ in the mark of a list, in the spelling of an input field and in its
type have the same text. Two spellings of a value give different texts, even though their
constructors are equal. -/
theorem module_text_determines_sample :
  (∀ n ∈ (sampleSchema true "A_B" "a_b" "Boolean").names, isName n) ∧
    (∀ n ∈ (sampleSchema false "A_B" "aB" "Bool").names, isName n) ∧
    (∀ n ∈ (sampleSchema true "a_b" "a_b" "Boolean").names, isName n) ∧
    ((sampleSchema true "A_B" "a_b" "Boolean").toModule "M" ⟨false, true⟩).render
      = ((sampleSchema false "A_B" "aB" "Bool").toModule "M" ⟨false, true⟩).render ∧
    ((sampleSchema true "A_B" "a_b" "Boolean").toModule "M" ⟨false, true⟩).render
      ≠ ((sampleSchema true "a_b" "a_b" "Boolean").toModule "M" ⟨false, true⟩).render
  := by
  have hname : '\n' ∉ "M".toList := by decide
  have hfirst : ∀ n ∈ (sampleSchema true "A_B" "a_b" "Boolean").names, isName n := by decide
  have hsecond : ∀ n ∈ (sampleSchema false "A_B" "aB" "Bool").names, isName n := by decide
  have hthird : ∀ n ∈ (sampleSchema true "a_b" "a_b" "Boolean").names, isName n := by decide
  refine ⟨hfirst, hsecond, hthird, ?_, ?_⟩
  · rw [module_text_determines hname hname hfirst hsecond]
    decide
  · rw [ne_eq, module_text_determines hname hname hfirst hthird]
    decide

end ElmSchema
