import ElmSchema.Output.Check
import ElmSchema.Proofs.Code.Lines
import ElmSchema.Proofs.Text.Loose

/-!
# Parentheses in generated code

A text is balanced if it has as many opening as closing parentheses. Each line of a
declaration is balanced if the names in it are, since names are taken over as they are or
spelled with letters and digits only. The function that decoders of enums are made with is
balanced as a whole. So the module of a schema with balanced names is balanced, and it passes
the check for generated code.
-/

namespace ElmSchema

open Document (isName)

/-! ### Balance -/

namespace Text

/-- By how many the opening parentheses of a text outnumber the closing ones. -/
def excess (s : String) : Int :=
  s.toList.count '(' - s.toList.count ')'

/-- Whether a text has as many opening as closing parentheses. -/
def isBalanced (s : String) : Bool :=
  s.toList.count '(' == s.toList.count ')'

theorem isBalanced_iff {s : String} :
  isBalanced s ↔ excess s = 0
  := by
  simp only [isBalanced, excess, beq_iff_eq]
  omega

theorem excess_of_isBalanced {s : String} (h : isBalanced s) :
  excess s = 0
  := isBalanced_iff.mp h

@[simp]
theorem excess_append (s t : String) :
  excess (s ++ t) = excess s + excess t
  := by
  simp only [excess, String.toList_append, List.count_append]
  omega

theorem excess_of_not_mem {s : String} (hopen : '(' ∉ s.toList) (hclose : ')' ∉ s.toList) :
  excess s = 0
  := by
  simp [excess, List.count_eq_zero_of_not_mem hopen, List.count_eq_zero_of_not_mem hclose]

/-- A text of letters and digits has no parentheses. -/
theorem excess_of_isAlphanum {s : String} (h : ∀ c ∈ s.toList, c.isAlphanum) :
  excess s = 0
  := by
  apply excess_of_not_mem
  · intro hmem
    simpa using h '(' hmem
  · intro hmem
    simpa using h ')' hmem

/-- Joined by a balanced text, the excesses of texts add up. -/
theorem excess_intercalate_eq_sum
    {separator : String} (hseparator : excess separator = 0) (texts : List String) :
  excess (separator.intercalate texts) = (texts.map excess).sum
  := by
  induction texts with
  | nil => rw [String.intercalate_nil]; rfl
  | cons s rest ih =>
      cases rest with
      | nil => simp
      | cons t rest =>
          rw [String.intercalate_cons_cons, excess_append, excess_append, hseparator, ih]
          simp

/-- Balanced texts joined by a balanced text are balanced. -/
theorem excess_intercalate
    {separator : String} (hseparator : excess separator = 0) {texts : List String}
    (h : ∀ s ∈ texts, excess s = 0) :
  excess (separator.intercalate texts) = 0
  := by
  rw [excess_intercalate_eq_sum hseparator]
  apply List.sum_eq_zero
  rwa [List.forall_mem_map]

theorem excess_join {texts : List String} (h : ∀ s ∈ texts, excess s = 0) :
  excess (String.join texts) = 0
  := by
  induction texts with
  | nil => rfl
  | cons s rest ih =>
      obtain ⟨hs, hrest⟩ := List.forall_mem_cons.mp h
      rw [String.join_cons, excess_append, hs, ih hrest]
      rfl

theorem count_dropWhile {p : Char → Bool} {c : Char} (hc : p c = false) (cs : List Char) :
  (cs.dropWhile p).count c = cs.count c
  := by
  induction cs with
  | nil => rfl
  | cons d rest ih =>
      rw [List.dropWhile_cons]
      split
      · rename_i hd
        have hne : d ≠ c := by
          rintro rfl
          simp [hc] at hd
        rw [ih, List.count_cons_of_ne hne]
      · rfl

/-- Trimming takes no parentheses away. -/
theorem excess_dropEnd
    {p : Char → Bool} (hopen : p '(' = false) (hclose : p ')' = false) (cs : List Char) :
  excess (String.ofList (dropEnd p cs)) = excess (String.ofList cs)
  := by
  simp [excess, dropEnd, count_dropWhile hopen, count_dropWhile hclose]

theorem excess_trimEnd (s : String) :
  excess (trimEnd s) = excess s
  := by
  rw [trimEnd, excess_dropEnd rfl rfl, String.ofList_toList]

theorem excess_trimNewlines (s : String) :
  excess (trimNewlines s) = excess s
  := by
  rw [trimNewlines, excess_dropEnd rfl rfl, String.ofList_toList]

end Text

open Text (excess isBalanced isBalanced_iff)

/-! ### Names -/

/-- A name of the language has no parentheses. -/
theorem excess_of_isName {s : String} (h : isName s) :
  excess s = 0
  := by
  apply Text.excess_of_not_mem
  · apply Document.not_mem_of_isName h (by decide)
  · apply Document.not_mem_of_isName h (by decide)

@[simp]
theorem excess_pascal (name : String) :
  excess (Name.pascal name) = 0
  := Text.excess_of_isAlphanum fun _ => Name.isAlphanum_of_mem_pascal

@[simp]
theorem excess_camel (name : String) :
  excess (Name.camel name) = 0
  := Text.excess_of_isAlphanum fun _ => Name.isAlphanum_of_mem_camel

@[simp]
theorem excess_inQuotes (s : String) :
  excess (inQuotes s) = excess s
  := by
  have hquote : excess "\"" = 0 := rfl
  simp [inQuotes, hquote]

/-! ### Types and decoders -/

namespace FieldType

variable {t : FieldType} (h : excess t.typeName = 0)
include h

theorem excess_elmType :
  excess t.elmType.render = 0
  := by
  have hbase : excess (baseType t.typeName).render = 0 := by
    rw [baseType, ElmType.render]
    split
    · rfl
    · exact h
  rw [elmType]
  split_ifs
  · rw [ElmType.render, Text.excess_append, hbase]
    rfl
  · exact hbase
  · rw [ElmType.render, Text.excess_append, hbase]
    rfl

theorem excess_decoder :
  excess t.decoder.render = 0
  := by
  have hbase : excess (baseDecoder t.typeName).render = 0 := by
    rw [baseDecoder]
    split_ifs
    · rfl
    · rfl
    · rfl
    · rfl
    · rw [Decoder.render_declared, decoderName, Text.excess_append, h]
      rfl
  rw [decoder]
  split_ifs
  · rw [Decoder.render_list, Text.excess_append, Text.excess_append, hbase]
    rfl
  · exact hbase
  · rw [Decoder.render_nullable, Text.excess_append, Text.excess_append, hbase]
    rfl

end FieldType

/-! ### Declarations -/

/-- A declaration of balanced lines is balanced. -/
theorem excess_render {d : Declaration} (h : ∀ line ∈ d.lines, excess line = 0) :
  excess d.render = 0
  := by
  rw [Declaration.render, Text.excess_trimEnd]
  apply Text.excess_intercalate rfl h

/-- Lists of balanced lines stay such when empty lines are put between them. -/
theorem excess_separateLines :
  ∀ {parts : List (List String)}, (∀ lines ∈ parts, ∀ line ∈ lines, excess line = 0) →
    ∀ line ∈ separateLines parts, excess line = 0
  | [], _ => by simp [separateLines]
  | [lines], h => h lines List.mem_cons_self
  | lines :: next :: rest, h => by
      obtain ⟨hlines, hrest⟩ := List.forall_mem_cons.mp h
      rw [separateLines, List.forall_mem_append, List.forall_mem_cons]
      · use hlines, rfl, excess_separateLines hrest
      · simp

-- The constant texts in a line are balanced by computation.

theorem excess_armLines {pattern result : String}
    (hpattern : excess pattern = 0) (hresult : excess result = 0) :
  ∀ line ∈ armLines pattern result, excess line = 0
  := by
  simp (disch := decide) [armLines, hpattern, hresult, Text.excess_of_isBalanced]

theorem excess_decoderHead {name : String} (h : excess name = 0) :
  ∀ line ∈ decoderHead name, excess line = 0
  := by
  simp (disch := decide) [decoderHead, decoderName, h, Text.excess_of_isBalanced]

namespace EnumDef

variable {e : EnumDef} (h : ∀ n ∈ e.names, excess n = 0)
include h

theorem excess_union :
  excess e.union.render = 0
  := by
  obtain ⟨hname, -⟩ := forall_names_iff.mp h
  have hconstructors : excess (" | ".intercalate (e.values.map Name.pascal)) = 0 := by
    apply Text.excess_intercalate rfl
    simp
  apply excess_render
  simp (disch := decide) [union, Declaration.lines, hname, hconstructors,
    Text.excess_of_isBalanced]

theorem excess_conversions :
  excess e.conversions.render = 0
  := by
  obtain ⟨hname, hvalues⟩ := forall_names_iff.mp h
  apply excess_render
  simp only [conversions, Declaration.lines, Conversions.toLines, Conversions.fromLines,
    List.map_map, List.flatMap_map, List.forall_mem_append]
  refine ⟨⟨⟨?_, excess_separateLines ?_⟩, ?_⟩, ⟨?_, ?_⟩, ?_⟩
  · simp (disch := decide) [toStringName, hname, Text.excess_of_isBalanced]
  · rw [List.forall_mem_map]
    intro value hvalue
    apply excess_armLines
    · exact excess_pascal value
    · rw [excess_inQuotes, hvalues value hvalue]
  · simp (disch := decide) [Text.excess_of_isBalanced]
  · simp (disch := decide) [fromStringName, hname, Text.excess_of_isBalanced]
  · intro line hline
    obtain ⟨value, hvalue, hline⟩ := List.mem_flatMap.mp hline
    rcases List.mem_append.mp hline with hline | hline
    · apply excess_armLines _ _ line hline
      · rw [excess_inQuotes, hvalues value hvalue]
      · simp (disch := decide) [Text.excess_of_isBalanced]
    · obtain rfl := List.mem_singleton.mp hline
      rfl
  · apply excess_armLines rfl rfl

theorem excess_decoder :
  excess e.decoder.render = 0
  := by
  obtain ⟨hname, -⟩ := forall_names_iff.mp h
  apply excess_render
  rw [decoder, Declaration.lines, List.forall_mem_append]
  use excess_decoderHead hname
  simp (disch := decide) [fromStringName, Text.excess_of_isBalanced]

end EnumDef

theorem excess_requiredLine
    {key : String} {d : Decoder} (hkey : excess key = 0) (hd : excess d.render = 0) :
  excess (requiredLine (key, d)) = 0
  := by
  rw [requiredLine_mk]
  generalize d.render = text at hd ⊢
  simp (disch := decide) [hkey, hd, Text.excess_of_isBalanced]

theorem excess_recordLines
    {fields : List (String × ElmType)}
    (h : ∀ field ∈ fields, excess field.1 = 0 ∧ excess field.2.render = 0) :
  ∀ line ∈ recordLines fields, excess line = 0
  := by
  have hfield : ∀ opening, excess opening = 0 → ∀ field ∈ fields,
      excess (fieldLine opening field) = 0 := by
    intro opening hopening field hmem
    obtain ⟨hname, htype⟩ := h field hmem
    simp (disch := decide) [fieldLine, hopening, hname, htype, Text.excess_of_isBalanced]
  cases fields with
  | nil => simp (disch := decide) [recordLines, Text.excess_of_isBalanced]
  | cons first rest =>
      simp only [recordLines, List.forall_mem_append, List.forall_mem_cons, List.forall_mem_map]
      refine ⟨⟨?_, ?_⟩, rfl, by simp⟩
      · apply hfield _ rfl _ List.mem_cons_self
      · exact fun field hmem => hfield _ rfl field (List.mem_cons_of_mem first hmem)

namespace RecordDef

variable {r : RecordDef} (h : ∀ n ∈ r.names, excess n = 0)
include h

theorem excess_record :
  excess r.record.render = 0
  := by
  obtain ⟨hname, hfields⟩ := forall_names_iff.mp h
  apply excess_render
  rw [record, Declaration.lines, List.forall_mem_cons]
  constructor
  · simp (disch := decide) [hname, Text.excess_of_isBalanced]
  · apply excess_recordLines
    rw [List.forall_mem_map]
    intro f hf
    use excess_camel f.name
    exact FieldType.excess_elmType (hfields f hf).2

theorem excess_decoder :
  excess r.decoder.render = 0
  := by
  obtain ⟨hname, hfields⟩ := forall_names_iff.mp h
  apply excess_render
  rw [decoder, Declaration.lines, List.forall_mem_append, List.forall_mem_cons]
  refine ⟨excess_decoderHead hname, ?_, ?_⟩
  · split
    · rfl
    · rw [Text.excess_append, hname]
      rfl
  · rw [List.map_map, List.forall_mem_map]
    intro f hf
    obtain ⟨hfname, htype⟩ := hfields f hf
    exact excess_requiredLine hfname (FieldType.excess_decoder htype)

end RecordDef

-- The parentheses of this declaration match across its lines only.
theorem excess_textDecoder :
  excess Declaration.textDecoder.render = 0
  := by
  rw [Declaration.render, Text.excess_trimEnd, Text.excess_intercalate_eq_sum rfl]
  decide +kernel

/-! ### Modules -/

theorem excess_section
    {title : String} (htitle : isBalanced title) {declarations : List Declaration}
    (h : ∀ d ∈ declarations, excess d.render = 0) :
  excess (Section.render ⟨title, declarations⟩) = 0
  := by
  have hdeclarations : excess ("\n\n\n".intercalate (declarations.map Declaration.render)) = 0 := by
    apply Text.excess_intercalate rfl
    rwa [List.forall_mem_map]
  simp (disch := decide) [Section.render, Text.excess_of_isBalanced htitle, hdeclarations,
    Text.excess_of_isBalanced]

/-- The sections of a schema are balanced if its names are. -/
theorem Schema.excess_sections
    {s : Schema} (h : ∀ n ∈ s.names, excess n = 0) (extras : Extras) :
  ∀ part ∈ s.sections extras, excess part.render = 0
  := by
  obtain ⟨henums, hobjects, hinputs⟩ := forall_names_iff.mp h
  have htitles : ∀ title ∈ sectionTitles, isBalanced title := by decide
  have hdeclarations : ∀ part ∈ s.sections extras, ∀ d ∈ part.declarations,
      excess d.render = 0 := by
    apply forall_declarations
    · exact fun e he => EnumDef.excess_union (henums e he)
    · exact fun r hr => RecordDef.excess_record (hobjects r hr)
    · exact fun r hr => RecordDef.excess_record (hinputs r hr)
    · exact fun e he => EnumDef.excess_conversions (henums e he)
    · exact fun e he => EnumDef.excess_decoder (henums e he)
    · exact fun r hr => RecordDef.excess_decoder (hobjects r hr)
    · exact excess_textDecoder
  intro part hpart
  apply excess_section
  · apply htitles
    rw [← s.map_title_sections extras]
    exact List.mem_map_of_mem hpart
  · exact hdeclarations part hpart

/-- The module of a schema with balanced names is balanced. -/
theorem Schema.excess_toModule
    {s : Schema} {name : String} (hname : excess name = 0) (h : ∀ n ∈ s.names, excess n = 0)
    (extras : Extras) :
  excess (s.toModule name extras).render = 0
  := by
  have hhead : excess (moduleHead name) = 0 := by
    simp (disch := decide) [moduleHead, hname, Text.excess_of_isBalanced]
  have hsections : ∀ part ∈ (s.toModule name extras).sections, excess part.render = 0 := by
    intro part hpart
    simp only [toModule, List.mem_filter] at hpart
    apply excess_sections h extras part hpart.1
  have hjoin := Text.excess_join (List.forall_mem_map.mpr hsections)
  rw [Module.render, Text.excess_append, Text.excess_trimNewlines, Text.excess_append, hjoin]
  rw [toModule, hhead]
  rfl

/-! ### The check of code -/

theorem checkCode_eq_ok_iff {code : String} :
  checkCode code = .ok () ↔ "module ".toList <+: code.toList ∧ isBalanced code
  := by
  have hprefix : LooseText.ofString "module " <+: LooseText.ofString code ↔
      "module ".toList <+: code.toList :=
    List.prefix_map_iff_of_injective fun _ _ => LooseChar.char.inj
  rw [← hprefix, ← List.isPrefixOf_iff_prefix]
  simp only [checkCode, isBalanced, LooseText.count_ofString]
  split_ifs with hhead hbalance
  · simp_all
  · simp_all
  · simp_all

/-- A module starts with its head. -/
theorem prefix_render (m : Module) :
  "module ".toList <+: m.render.toList
  := by
  have hhead : ∃ tail, (moduleHead m.name).toList = "module".toList ++ ' ' :: tail := by
    simp [moduleHead]
  obtain ⟨tail, hhead⟩ := hhead
  rw [Module.render, Text.trimNewlines, String.toList_append, String.toList_ofList,
    String.toList_append, hhead, List.append_assoc, List.cons_append,
    Text.dropEnd_append_cons (by decide)]
  simp

/-- The code of a schema with balanced names passes the check. -/
theorem Schema.checkCode_toModule
    {s : Schema} {name : String} (hname : isBalanced name) (h : ∀ n ∈ s.names, isBalanced n)
    (extras : Extras) :
  checkCode (s.toModule name extras).render = .ok ()
  := by
  rw [checkCode_eq_ok_iff, isBalanced_iff]
  use prefix_render _
  apply excess_toModule (Text.excess_of_isBalanced hname)
  exact fun n hn => Text.excess_of_isBalanced (h n hn)

end ElmSchema
