import ElmSchema.Proofs.Code.Typing
import ElmSchema.Proofs.Name.Alphabet

/-!
# Declarations of a record

The text of a record type is read as a list of fields with their types, and the text of its
decoder as a pipeline: a seed and a list of keys with their decoders. Both have one entry for
each field of the object type, in the order of the fields. The record has the name of the
field in camel case, the pipeline has the name itself as key, and its decoder gives values of
the type in the record.
-/

namespace ElmSchema

open Document (isName isNameContinue)

/-! ### Reading -/

/-- The field that a line of a record type declares, after its opening character. -/
def readField? (opening : String) (line : List Char) : Option (String × ElmType) := do
  let rest ← ("    " ++ opening ++ " ").toList.isPrefixOf? line
  match Text.wordsOf (String.ofList rest) with
  | name :: [':'] :: words =>
    if name.all Char.isAlphanum then (ElmType.ofWords? words).map (String.ofList name, ·)
    else none
  | _ => none

/-- The fields in the lines of a record type after the first field. -/
def readMoreFields? : List (List Char) → Option (List (String × ElmType))
  | [] => none
  | [line] => if line = "    \x7d".toList then some [] else none
  | line :: rest => do
    let field ← readField? "," line
    let fields ← readMoreFields? rest
    return field :: fields

/-- The fields in the lines of a record type. -/
def readFields? : List (List Char) → Option (List (String × ElmType))
  | [] => none
  | [line] => if line = "    \x7b\x7d".toList then some [] else none
  | line :: rest => do
    let field ← readField? "\x7b" line
    let fields ← readMoreFields? rest
    return field :: fields

/-- The fields in the text of a record type. -/
def readRecord? (name text : String) : Option (List (String × ElmType)) :=
  match Text.linesOf text with
  | [] => none
  | head :: rest =>
    if head = ("type alias " ++ name ++ " =").toList then readFields? rest else none

/-- What a pipeline starts with: the constructor of a record, or the record without
fields. -/
inductive Seed where
  | constructor (name : String)
  | emptyRecord
deriving DecidableEq, Repr

/-- A pipeline of decoders. Each key is required, and its value is given to the seed. -/
structure Pipeline where
  seed : Seed
  fields : List (String × Decoder)
deriving DecidableEq, Repr

/-- The seed that a line writes. -/
def readSeed? (line : List Char) : Option Seed := do
  let rest ← "    Decode.succeed ".toList.isPrefixOf? line
  if rest = "\x7b\x7d".toList then some .emptyRecord else (readName? rest).map .constructor

/-- The key and the decoder that a line of a pipeline requires. -/
def readRequired? (line : List Char) : Option (String × Decoder) := do
  let rest ← "        |> required ".toList.isPrefixOf? line
  match Text.wordsOf (String.ofList rest) with
  | [] => none
  | literal :: words => return (← readLiteral? literal, ← Decoder.ofWords? words)

/-- The pipeline in the text of the decoder of a record. -/
def readPipeline? (name text : String) : Option Pipeline :=
  match Text.linesOf text with
  | first :: second :: seed :: rest =>
    if first = (decoderName name ++ " : Decoder " ++ name).toList ∧
        second = (decoderName name ++ " =").toList then do
      return ⟨← readSeed? seed, ← rest.mapM readRequired?⟩
    else none
  | _ => none

/-! ### Lines -/

/-- A line for a field of a record is read. -/
theorem readField?_fieldLine
    (opening : String) (name : String) {t : FieldType} (ht : isName t.typeName) :
  readField? opening (fieldLine opening (Name.camel name, t.elmType)).toList
    = some (Name.camel name, t.elmType)
  := by
  have hprefix : ("    " ++ opening ++ " ").toList.isPrefixOf?
      (fieldLine opening (Name.camel name, t.elmType)).toList
        = some (Name.camel name ++ " : " ++ t.elmType.render).toList := by
    rw [List.isPrefixOf?_eq_some_iff_append_eq, fieldLine]
    simp
  have halphanum : (Name.camel name).toList.all Char.isAlphanum :=
    List.all_eq_true.mpr fun _ => Name.isAlphanum_of_mem_camel
  have hwords : Text.wordsOf (Name.camel name ++ " : " ++ t.elmType.render)
      = (Name.camel name).toList :: [':'] :: Text.wordsOf t.elmType.render := by
    have hcolon : Text.wordsOf (": " ++ t.elmType.render)
        = [':'] :: Text.wordsOf t.elmType.render := by
      apply Text.wordsOf_eq_cons
      · simp
      · decide
    rw [← hcolon]
    apply Text.wordsOf_eq_cons
    · simp
    · intro hblank
      simpa using List.all_eq_true.mp halphanum ' ' hblank
  rw [readField?, hprefix]
  simp only [Option.bind_eq_bind, Option.bind_some, String.ofList_toList, hwords, halphanum,
    if_true, FieldType.ofWords?_elmType ht, Option.map_some]

theorem newline_not_mem_fieldLine
    {opening : String} (hopening : '\n' ∉ opening.toList) (name : String) {t : FieldType}
    (ht : isName t.typeName) :
  '\n' ∉ (fieldLine opening (Name.camel name, t.elmType)).toList
  := by
  have hname : '\n' ∉ (Name.camel name).toList := by
    intro hmem
    simpa using Name.isAlphanum_of_mem_camel hmem
  simp [fieldLine, hopening, hname, FieldType.newline_not_mem_elmType ht]

theorem requiredLine_mk (name : String) (d : Decoder) :
  requiredLine (name, d) = "        |> required " ++ inQuotes name ++ " " ++ d.render
  := rfl

/-- A line of a pipeline is read. -/
theorem readRequired?_requiredLine
    {name : String} (hname : isName name) {t : FieldType} (ht : isName t.typeName) :
  readRequired? (requiredLine (name, t.decoder)).toList = some (name, t.decoder)
  := by
  have hprefix : "        |> required ".toList.isPrefixOf? (requiredLine (name, t.decoder)).toList
        = some (inQuotes name ++ " " ++ t.decoder.render).toList := by
    rw [List.isPrefixOf?_eq_some_iff_append_eq, requiredLine_mk]
    simp only [String.toList_append, List.append_assoc]
  have hwords : Text.wordsOf (inQuotes name ++ " " ++ t.decoder.render)
      = (inQuotes name).toList :: Text.wordsOf t.decoder.render := by
    apply Text.wordsOf_eq_cons
    · simp
    · simpa [inQuotes] using blank_not_mem_name hname
  rw [readRequired?, hprefix]
  simp only [Option.bind_eq_bind, Option.bind_some, String.ofList_toList, hwords,
    readLiteral?_inQuotes fun _ => isPlain_of_mem_name hname, FieldType.ofWords?_decoder ht]
  rfl

/-! ### Blocks -/

/-- The fields of a record type, as it has them. -/
def RecordDef.recordFields (r : RecordDef) : List (String × ElmType) :=
  r.fields.map fun f => (Name.camel f.name, f.type.elmType)

/-- The fields of the decoder of a record, as it has them. -/
def RecordDef.decoderFields (r : RecordDef) : List (String × Decoder) :=
  r.fields.map fun f => (f.name, f.type.decoder)

/-- The fields after the first one are read from their lines. -/
theorem readMoreFields?_lines :
  ∀ {fields : List FieldDef}, (∀ f ∈ fields, isName f.type.typeName) →
    readMoreFields? ((fields.map fun f =>
        (fieldLine "," (Name.camel f.name, f.type.elmType)).toList) ++ ["    \x7d".toList])
      = some (fields.map fun f => (Name.camel f.name, f.type.elmType))
  | [], _ => by
      simp [readMoreFields?]
  | f :: fields, h => by
      have ih := readMoreFields?_lines fun g hg => h g (List.mem_cons_of_mem f hg)
      rw [List.map_cons, List.cons_append, readMoreFields?,
        readField?_fieldLine "," f.name (h f List.mem_cons_self), ih]
      · rfl
      · simp

/-- The fields of a record type are read from their lines. -/
theorem readFields?_recordLines {r : RecordDef} (h : ∀ f ∈ r.fields, isName f.type.typeName) :
  readFields? ((recordLines r.recordFields).map String.toList) = some r.recordFields
  := by
  obtain ⟨name, fields⟩ := r
  cases fields with
  | nil => simp [RecordDef.recordFields, recordLines, readFields?]
  | cons f fields =>
      have hrest := readMoreFields?_lines fun g hg => h g (List.mem_cons_of_mem f hg)
      simp only [RecordDef.recordFields, List.map_cons, recordLines, List.map_append, List.map_map,
        List.map_nil, List.cons_append, Function.comp_def]
      rw [readFields?, readField?_fieldLine "\x7b" f.name (h f List.mem_cons_self), hrest]
      · rfl
      · simp

theorem newline_not_mem_recordLines
    {r : RecordDef} (h : ∀ f ∈ r.fields, isName f.type.typeName) {line : String}
    (hline : line ∈ recordLines r.recordFields) :
  '\n' ∉ line.toList
  := by
  obtain ⟨name, fields⟩ := r
  cases fields with
  | nil =>
      obtain rfl := List.mem_singleton.mp hline
      decide
  | cons f fields =>
      simp only [RecordDef.recordFields, List.map_cons, recordLines, List.map_map, List.cons_append,
        List.mem_cons, List.mem_append, List.mem_map, Function.comp_apply, List.not_mem_nil,
        or_false] at hline
      rcases hline with rfl | ⟨g, hg, rfl⟩ | rfl
      · apply newline_not_mem_fieldLine (by decide) f.name (h f List.mem_cons_self)
      · apply newline_not_mem_fieldLine (by decide) g.name (h g (List.mem_cons_of_mem f hg))
      · decide

theorem lines_record (r : RecordDef) :
  r.record.lines = ("type alias " ++ r.name ++ " =") :: recordLines r.recordFields
  := rfl

theorem exists_last_record (r : RecordDef) :
  ∃ last, r.record.lines.getLast? = some last ∧ Text.isFilled last
  := by
  rw [lines_record]
  cases r.recordFields with
  | nil =>
      use "    \x7b\x7d", rfl
      decide
  | cons field fields =>
      use "    \x7d"
      simp [recordLines, List.getLast?_cons, List.getLast?_append, Text.isFilled, Text.isBlank]

theorem newline_not_mem_record
    {r : RecordDef} (hname : isName r.name) (h : ∀ f ∈ r.fields, isName f.type.typeName)
    {line : String} (hline : line ∈ r.record.lines) :
  '\n' ∉ line.toList
  := by
  rw [lines_record] at hline
  rcases List.mem_cons.mp hline with rfl | hline
  · simpa using newline_not_mem_name hname
  · apply newline_not_mem_recordLines h hline

/-- The text of a record type is read. -/
theorem readRecord?_record
    {r : RecordDef} (hname : isName r.name) (h : ∀ f ∈ r.fields, isName f.type.typeName) :
  readRecord? r.name r.record.render = some r.recordFields
  := by
  obtain ⟨last, hlast, hfilled⟩ := exists_last_record r
  rw [readRecord?, linesOf_render hlast hfilled,
    Text.flatMap_linesOf_of_not_mem fun _ => newline_not_mem_record hname h, lines_record,
    List.map_cons]
  simp only [if_true]
  apply readFields?_recordLines h

/-- The seed of the decoder of a record: its constructor, unless it has no fields. -/
def RecordDef.seed (r : RecordDef) : Seed :=
  if r.fields.isEmpty then .emptyRecord else .constructor r.name

/-- The text of a seed. -/
def Seed.render : Seed → String
  | .constructor name => name
  | .emptyRecord => "\x7b\x7d"

theorem readSeed?_seed {r : RecordDef} (hname : isName r.name) :
  readSeed? ("    Decode.succeed " ++ r.seed.render).toList = some r.seed
  := by
  have hprefix : "    Decode.succeed ".toList.isPrefixOf?
      ("    Decode.succeed " ++ r.seed.render).toList = some r.seed.render.toList := by
    rw [String.toList_append, List.isPrefixOf?_eq_some_iff_append_eq]
  rw [readSeed?, hprefix, RecordDef.seed]
  split
  · rfl
  · have hne : r.name.toList ≠ "\x7b\x7d".toList := by
      intro heq
      have := Document.isNameContinue_of_mem hname (c := '\x7b') (by simp [heq])
      simp [isNameContinue] at this
    simp only [Seed.render, Option.bind_eq_bind, Option.bind_some, if_neg hne,
      readName?_of_isName hname, Option.map_some]

theorem mapM_readRequired? :
  ∀ {fields : List FieldDef}, (∀ f ∈ fields, isName f.name ∧ isName f.type.typeName) →
    (fields.map fun f => (requiredLine (f.name, f.type.decoder)).toList).mapM readRequired?
      = some (fields.map fun f => (f.name, f.type.decoder))
  | [], _ => rfl
  | f :: fields, h => by
      have ih := mapM_readRequired? fun g hg => h g (List.mem_cons_of_mem f hg)
      obtain ⟨hname, htype⟩ := h f List.mem_cons_self
      rw [List.map_cons, List.mapM_cons, readRequired?_requiredLine hname htype, ih]
      rfl

theorem lines_decoder (r : RecordDef) :
  r.decoder.lines = (decoderName r.name ++ " : Decoder " ++ r.name) ::
    (decoderName r.name ++ " =") :: ("    Decode.succeed " ++ r.seed.render) ::
      r.fields.map fun f => requiredLine (f.name, f.type.decoder)
  := by
  obtain ⟨name, fields⟩ := r
  cases fields with
  | nil => rfl
  | cons f fields =>
      simp [RecordDef.decoder, Declaration.lines, decoderHead, RecordDef.seed, Seed.render,
        Function.comp_def]

theorem exists_last_decoder
    {r : RecordDef} (h : ∀ f ∈ r.fields, isName f.name ∧ isName f.type.typeName) :
  ∃ last, r.decoder.lines.getLast? = some last ∧ Text.isFilled last
  := by
  rw [lines_decoder]
  obtain ⟨name, fields⟩ := r
  rcases List.eq_nil_or_concat' fields with rfl | ⟨init, f, rfl⟩
  · use "    Decode.succeed \x7b\x7d", rfl
    decide
  · use requiredLine (f.name, f.type.decoder)
    constructor
    · simp [List.getLast?_cons, List.getLast?_append]
    · rw [requiredLine_mk]
      apply Text.isFilled_append
      apply (FieldType.render_decoder (h f (by simp)).2).2

theorem newline_not_mem_decoder
    {r : RecordDef} (hname : isName r.name)
    (h : ∀ f ∈ r.fields, isName f.name ∧ isName f.type.typeName) {line : String}
    (hline : line ∈ r.decoder.lines) :
  '\n' ∉ line.toList
  := by
  have hnewline := newline_not_mem_name hname
  simp only [lines_decoder, List.mem_cons, List.mem_map] at hline
  rcases hline with rfl | rfl | rfl | ⟨f, hf, rfl⟩
  · simp [decoderName, hnewline]
  · simp [decoderName, hnewline]
  · rw [RecordDef.seed]
    split
    · decide
    · simp [Seed.render, hnewline]
  · obtain ⟨hfname, htype⟩ := h f hf
    simp [requiredLine_mk, newline_not_mem_inQuotes hfname, (FieldType.render_decoder htype).1]

/-- The text of the decoder of a record is read. -/
theorem readPipeline?_decoder
    {r : RecordDef} (hname : isName r.name)
    (h : ∀ f ∈ r.fields, isName f.name ∧ isName f.type.typeName) :
  readPipeline? r.name r.decoder.render = some ⟨r.seed, r.decoderFields⟩
  := by
  obtain ⟨last, hlast, hfilled⟩ := exists_last_decoder h
  rw [readPipeline?, linesOf_render hlast hfilled,
    Text.flatMap_linesOf_of_not_mem fun _ => newline_not_mem_decoder hname h, lines_decoder]
  simp only [List.map_cons, List.map_map, Function.comp_def, and_self, if_true,
    readSeed?_seed hname, mapM_readRequired? h]
  rfl

/-! ### Agreement -/

/-- The record type and the decoder of an object type agree. Both texts are read, and have one
entry for each field, in order: the record declares the name in camel case with a type, and
the pipeline requires the name itself with a decoder of values of this type. For a list
neither allows for missing values. Without fields, both are the empty record. -/
theorem record_decoder_agree
    (r : RecordDef) (hname : isName r.name)
    (hfields : ∀ f ∈ r.fields, isName f.name ∧ isName f.type.typeName) :
  ∃ fields pipeline,
    readRecord? r.name r.record.render = some fields ∧
    readPipeline? r.name r.decoder.render = some pipeline ∧
    fields.length = r.fields.length ∧ pipeline.fields.length = r.fields.length ∧
    pipeline.seed = (if r.fields = [] then .emptyRecord else .constructor r.name) ∧
    ∀ (i : Nat) (f : FieldDef), r.fields[i]? = some f → ∃ t d,
      fields[i]? = some (Name.camel f.name, t) ∧ pipeline.fields[i]? = some (f.name, d) ∧
      t = f.type.elmType ∧ d.HasType t ∧
      (f.type.isList → t.hasMaybe = false ∧ d.hasNullable = false)
  := by
  have htypes : ∀ f ∈ r.fields, isName f.type.typeName := fun f hf => (hfields f hf).2
  use r.recordFields, ⟨r.seed, r.decoderFields⟩, readRecord?_record hname htypes,
    readPipeline?_decoder hname hfields
  refine ⟨?_, ?_, ?_, ?_⟩
  · simp [RecordDef.recordFields]
  · simp [RecordDef.decoderFields]
  · simp [RecordDef.seed]
  · intro i f hf
    use f.type.elmType, f.type.decoder
    refine ⟨?_, ?_, rfl, f.type.hasType, FieldType.not_missing_of_isList⟩
    · simp [RecordDef.recordFields, hf]
    · simp [RecordDef.decoderFields, hf]

/-- An optional Boolean and a list. -/
theorem record_decoder_agree_account :
  ∃ fields pipeline,
    readRecord? "Account" (RecordDef.mk "Account"
      [⟨"is_open", ⟨"Boolean", false, false⟩⟩,
        ⟨"account_roles", ⟨"Role", true, true⟩⟩]).record.render = some fields ∧
    readPipeline? "Account" (RecordDef.mk "Account"
      [⟨"is_open", ⟨"Boolean", false, false⟩⟩,
        ⟨"account_roles", ⟨"Role", true, true⟩⟩]).decoder.render = some pipeline ∧
    pipeline.seed = .constructor "Account" ∧
    (∃ d, fields[0]? = some ("isOpen", .maybe (.named "Bool")) ∧
      pipeline.fields[0]? = some ("is_open", d) ∧ d.HasType (.maybe (.named "Bool"))) ∧
    ∃ d, fields[1]? = some ("accountRoles", .list (.named "Role")) ∧
      pipeline.fields[1]? = some ("account_roles", d) ∧ d.HasType (.list (.named "Role"))
  := by
  obtain ⟨fields, pipeline, hrecord, hdecoder, -, -, hseed, hagree⟩ :=
    record_decoder_agree ⟨"Account",
      [⟨"is_open", ⟨"Boolean", false, false⟩⟩, ⟨"account_roles", ⟨"Role", true, true⟩⟩]⟩
      (by decide) (by decide)
  obtain ⟨t, d, hfield, hkey, rfl, htype, -⟩ := hagree 0 _ rfl
  obtain ⟨t', d', hfield', hkey', rfl, htype', -⟩ := hagree 1 _ rfl
  use fields, pipeline, hrecord, hdecoder, hseed
  constructor
  · use d, hfield, hkey, htype
  · use d', hfield', hkey', htype'

end ElmSchema
