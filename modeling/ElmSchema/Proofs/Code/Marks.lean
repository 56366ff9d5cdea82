import ElmSchema.Proofs.Code.References

/-!
# Reading a module back

The text of a module is read back section by section. The lines under the banner of a section
are those of its declarations. Some of them open a declaration and give its name, and some
give one entry of it; the others give nothing. From the sequence of openings and entries the
declarations are recovered: the enums from their conversions, the object types from their
decoders, and the input types, if they are in the module, from their record types.
-/

namespace ElmSchema

open Document (isName not_mem_of_isName)
open Text (filledLines linesOf wordsOf)

/-! ### Sections -/

/-- The lines under the banner of a title, up to the next banner. -/
def linesUnder (title : String) (lines : List (List Char)) : List (List Char) :=
  ((lines.dropWhile fun line => line != ("-- " ++ title).toList).drop 2).takeWhile fun line =>
    line.head? != some '-'

/-- The lines of the declarations of a section. -/
def Section.bodyLines (part : Section) : List (List Char) :=
  part.declarations.flatMap fun d => Text.filledLines d.render

/-- Lines before the banner are passed over. -/
theorem linesUnder_append
    {title : String} {before : List (List Char)} (h : ("-- " ++ title).toList ∉ before)
    (lines : List (List Char)) :
  linesUnder title (before ++ lines) = linesUnder title lines
  := by
  have hbefore : ∀ line ∈ before, line != ("-- " ++ title).toList := by
    intro line hline
    rw [bne_iff_ne]
    rintro rfl
    apply h hline
  rw [linesUnder, List.dropWhile_append_of_pos hbefore]
  rfl

/-- A title stands under no other banner, nor among lines that do not look like banners. -/
theorem title_not_mem_filledLines
    {title : String} {part : Section} (htitle : part.title ≠ title)
    (hlines : ∀ line ∈ part.bodyLines, line.head? ≠ some '-') :
  ("-- " ++ title).toList ∉ part.filledLines
  := by
  have hshort : ("-- " ++ title).toList ≠ "--".toList := by simp
  have hother : ("-- " ++ title).toList ≠ ("-- " ++ part.title).toList := by
    rw [ne_eq, String.toList_inj]
    intro heq
    apply htitle
    simpa [← String.toList_inj] using heq.symm
  have hbody : ("-- " ++ title).toList ∉ part.bodyLines := by
    intro hmem
    exact hlines _ hmem (by simp)
  simp only [Section.filledLines, bannerLines, List.mem_append, List.mem_cons, List.not_mem_nil,
    or_false, not_or]
  exact ⟨⟨hshort, hother, hshort⟩, hbody⟩

/-- Under a banner stand the lines of the declarations, up to the next banner. -/
theorem linesUnder_filledLines
    {part : Section} (hlines : ∀ line ∈ part.bodyLines, line.head? ≠ some '-')
    (rest : List Section) :
  linesUnder part.title (part.filledLines ++ rest.flatMap Section.filledLines) = part.bodyLines
  := by
  have hshort : "--".toList != ("-- " ++ part.title).toList := by simp
  have hrest : (rest.flatMap Section.filledLines).takeWhile (fun line => line.head? != some '-')
      = [] := by
    cases rest with
    | nil => rfl
    | cons next rest => simp [Section.filledLines, bannerLines]
  have hbody : ∀ line ∈ part.bodyLines, line.head? != some '-' := by
    intro line hline
    rw [bne_iff_ne]
    exact hlines line hline
  have hbanner : part.filledLines ++ rest.flatMap Section.filledLines
      = "--".toList :: ("-- " ++ part.title).toList :: "--".toList ::
        (part.bodyLines ++ rest.flatMap Section.filledLines) := by
    simp [Section.filledLines, bannerLines, Section.bodyLines]
  rw [linesUnder, hbanner,
    List.dropWhile_cons_of_pos (p := fun line => line != ("-- " ++ part.title).toList) hshort,
    List.dropWhile_cons_of_neg (by simp), List.drop_succ_cons, List.drop_succ_cons, List.drop_zero,
    List.takeWhile_append_of_pos hbody, hrest, List.append_nil]

/-- The lines under a title are those of the declarations of the section with this title, if
no declaration has a line that looks like that of a banner. -/
theorem linesUnder_flatMap (title : String) :
  ∀ {sections : List Section}, (sections.map Section.title).Nodup →
    (∀ part ∈ sections, ∀ line ∈ part.bodyLines, line.head? ≠ some '-') →
    linesUnder title (sections.flatMap Section.filledLines)
      = (sections.filter fun part => part.title == title).flatMap Section.bodyLines
  | [], _, _ => rfl
  | part :: rest, hnodup, hlines => by
      obtain ⟨hpart, hlines⟩ := List.forall_mem_cons.mp hlines
      obtain ⟨hfresh, hnodup⟩ := List.nodup_cons.mp hnodup
      rw [List.flatMap_cons, List.filter_cons]
      by_cases htitle : part.title = title
      · obtain rfl := htitle
        have hnone : rest.filter (fun other => other.title == part.title) = [] := by
          rw [List.filter_eq_nil_iff]
          intro other hother heq
          apply hfresh
          rw [← eq_of_beq heq]
          exact List.mem_map_of_mem hother
        rw [linesUnder_filledLines hpart, if_pos (by simp), hnone]
        simp
      · rw [linesUnder_append (title_not_mem_filledLines htitle hpart),
          if_neg (by simpa using htitle)]
        exact linesUnder_flatMap title hnodup hlines

/-! ### Starts of lines -/

namespace EnumDef

variable {e : EnumDef} (h : ∀ n ∈ e.names, isName n)
include h

theorem head?_ne_union :
  ∀ line ∈ filledLines e.union.render, line.head? ≠ some '-'
  := by
  rw [filledLines_union h, List.forall_mem_singleton, toList_render_union]
  simp

theorem head?_ne_conversions :
  ∀ line ∈ filledLines e.conversions.render, line.head? ≠ some '-'
  := by
  have hname : ∀ {name line : List Char}, name ≠ [] → (∀ c ∈ name, c.isAlphanum) →
      name <+: line → line.head? ≠ some '-' := by
    intro name line hne hname hstart hline
    obtain ⟨c, cs, rfl⟩ := List.exists_cons_of_ne_nil hne
    obtain ⟨rest, rfl⟩ := hstart
    obtain rfl : c = '-' := by simpa using hline
    simpa using hname '-' List.mem_cons_self
  intro line hline
  rcases start_conversions h hline with hblank | hstart | hstart
  · rw [hblank]
    decide
  · exact hname (by simp [toStringName]) (fun _ => isAlphanum_of_mem_toStringName) hstart
  · exact hname (by simp [fromStringName]) (fun _ => isAlphanum_of_mem_fromStringName) hstart

theorem head?_ne_decoder :
  ∀ line ∈ filledLines e.decoder.render, line.head? ≠ some '-'
  := by
  rw [filledLines_decoder h, linesOf_decoder h]
  simp [decoderName]

end EnumDef

namespace RecordDef

variable {r : RecordDef} (h : ∀ n ∈ r.names, isName n)
include h

theorem head?_ne_record :
  ∀ line ∈ filledLines r.record.render, line.head? ≠ some '-'
  := by
  rw [filledLines_record h, List.forall_mem_map, lines_record, List.forall_mem_cons]
  constructor
  · simp
  · intro line hline
    rw [head?_recordLines hline]
    decide

theorem head?_ne_decoder :
  ∀ line ∈ filledLines r.decoder.render, line.head? ≠ some '-'
  := by
  rw [filledLines_decoder h, List.forall_mem_map, lines_decoder]
  simp [decoderName, requiredLine_mk]

end RecordDef

/-- No line of a declaration looks like that of a banner. -/
theorem Schema.head?_ne_sections
    {s : Schema} (h : ∀ n ∈ s.names, isName n) (extras : Extras) :
  ∀ part ∈ s.sections extras, ∀ line ∈ part.bodyLines, line.head? ≠ some '-'
  := by
  obtain ⟨henums, hobjects, hinputs⟩ := forall_names_iff.mp h
  have hdeclarations : ∀ part ∈ s.sections extras, ∀ d ∈ part.declarations,
      ∀ line ∈ filledLines d.render, line.head? ≠ some '-' := by
    apply forall_declarations
    · exact fun e he => EnumDef.head?_ne_union (henums e he)
    · exact fun r hr => RecordDef.head?_ne_record (hobjects r hr)
    · exact fun r hr => RecordDef.head?_ne_record (hinputs r hr)
    · exact fun e he => EnumDef.head?_ne_conversions (henums e he)
    · exact fun e he => EnumDef.head?_ne_decoder (henums e he)
    · exact fun r hr => RecordDef.head?_ne_decoder (hobjects r hr)
    · rw [filledLines_textDecoder]
      decide
  intro part hpart line hline
  obtain ⟨d, hd, hline⟩ := List.mem_flatMap.mp hline
  exact hdeclarations part hpart d hd line hline

/-- The lines under a title are those of the declarations of the schema under this title. -/
theorem Schema.linesUnder_render
    {s : Schema} {name : String} (hname : '\n' ∉ name.toList) (h : ∀ n ∈ s.names, isName n)
    (extras : Extras) (title : String) :
  linesUnder title (filledLines (s.toModule name extras).render)
    = ((s.sections extras).filter fun part => part.title == title).flatMap Section.bodyLines
  := by
  have hhead : ("-- " ++ title).toList ∉ headLines name := by
    simp [headLines]
  have hnodup : ((s.toModule name extras).sections.map Section.title).Nodup := by
    have htitles : sectionTitles.Nodup := by decide
    rw [← s.map_title_sections extras] at htitles
    exact htitles.sublist (List.filter_sublist.map Section.title)
  have hlines : ∀ part ∈ (s.toModule name extras).sections, ∀ line ∈ part.bodyLines,
      line.head? ≠ some '-' := by
    intro part hpart
    simp only [toModule, List.mem_filter] at hpart
    exact head?_ne_sections h extras part hpart.1
  rw [s.filledLines_render hname, linesUnder_append hhead, linesUnder_flatMap title hnodup hlines,
    toModule, List.filter_comm]
  apply flatMap_filter_sections

/-! ### Openings and entries -/

/-- What a line of a declaration says: it opens a declaration of a name, or gives an entry of
the declaration that is open. -/
inductive Mark (α : Type) where
  | opening (name : String)
  | entry (x : α)
deriving DecidableEq, Repr

/-- The marks of declarations, each with a name and entries. -/
def marksOf {α : Type} (blocks : List (String × List α)) : List (Mark α) :=
  blocks.flatMap fun block => .opening block.1 :: block.2.map .entry

/-- Entries end where a declaration is opened. -/
theorem entries_append_inj {α : Type} :
  ∀ {xs ys : List α} {blocks others : List (String × List α)},
    xs.map Mark.entry ++ marksOf blocks = ys.map Mark.entry ++ marksOf others →
    xs = ys ∧ marksOf blocks = marksOf others
  | [], [], _, _, h => ⟨rfl, h⟩
  | [], y :: ys, blocks, others, h => by
      cases blocks with
      | nil => simp [marksOf] at h
      | cons block blocks => simp [marksOf] at h
  | x :: xs, [], blocks, others, h => by
      cases others with
      | nil => simp [marksOf] at h
      | cons block others => simp [marksOf] at h
  | x :: xs, y :: ys, blocks, others, h => by
      obtain ⟨hx, hrest⟩ : x = y ∧
          xs.map Mark.entry ++ marksOf blocks = ys.map Mark.entry ++ marksOf others := by
        simpa using h
      obtain ⟨rfl, hmarks⟩ := entries_append_inj hrest
      exact ⟨by rw [hx], hmarks⟩

/-- The marks of declarations determine the declarations. -/
theorem marksOf_injective {α : Type} :
  Function.Injective (marksOf (α := α))
  := by
  intro blocks
  induction blocks with
  | nil =>
      intro others h
      cases others with
      | nil => rfl
      | cons block others => simp [marksOf] at h
  | cons block blocks ih =>
      intro others h
      cases others with
      | nil => simp [marksOf] at h
      | cons other others =>
          obtain ⟨name, entries⟩ := block
          obtain ⟨name', entries'⟩ := other
          obtain ⟨hname, hrest⟩ : name = name' ∧ entries.map Mark.entry ++ marksOf blocks
              = entries'.map Mark.entry ++ marksOf others := by
            simpa [marksOf] using h
          obtain ⟨hentries, hmarks⟩ := entries_append_inj hrest
          rw [hname, hentries, ih hmarks]

/-! ### Enums -/

/-- The words of a text are one more than its blanks. -/
theorem length_wordsOf (s : String) :
  (wordsOf s).length = s.toList.count ' ' + 1
  := by
  rw [wordsOf]
  induction s.toList with
  | nil => rfl
  | cons c cs ih =>
      rw [List.splitOn_cons_eq_if_modifyHead]
      split
      · rename_i hc
        obtain rfl := eq_of_beq hc
        simp [ih]
      · rename_i hc
        rw [List.count_cons_of_ne (by simpa using hc)]
        simp [ih]

/-- What the lines of the results of a function to texts start with. -/
def resultStart : List Char :=
  "            \"".toList

/-- The mark of a line of conversions. The signature of the function to texts opens an enum,
and each text that this function gives is an entry. -/
def conversionMark? (line : List Char) : Option (Mark String) :=
  if resultStart.isPrefixOf line then (readLiteral? (line.drop 12)).map .entry
  else
    match wordsOf (String.ofList line) with
    | [_, [':'], name, ['-', '>'], _] => some (.opening (String.ofList name))
    | _ => none

theorem conversionMark?_eq_none
    {line : List Char} (hstart : ¬resultStart <+: line) (hblanks : line.count ' ' ≠ 4) :
  conversionMark? line = none
  := by
  have hwords := length_wordsOf (String.ofList line)
  rw [String.toList_ofList] at hwords
  rw [conversionMark?, if_neg (by rwa [List.isPrefixOf_iff_prefix])]
  split
  · rename_i hmatch
    simp only [hmatch, List.length_cons, List.length_nil] at hwords
    omega
  · rfl

theorem not_resultStart_prefix {line : List Char} (h : '"' ∉ line) :
  ¬resultStart <+: line
  := by
  intro hprefix
  apply h
  apply hprefix.subset
  decide

/-- After twelve blanks, a quotation mark is looked for. -/
theorem resultStart_prefix_iff (rest : List Char) :
  resultStart <+: "            ".toList ++ rest ↔ ['"'] <+: rest
  := by
  have hstart : resultStart = "            ".toList ++ ['"'] := by decide
  rw [hstart, List.prefix_append_right_inj]

theorem not_mem_of_isAlphanum
    {s : String} (h : ∀ c ∈ s.toList, c.isAlphanum) {c : Char} (hc : c.isAlphanum = false) :
  c ∉ s.toList
  := by
  intro hmem
  simp [h c hmem] at hc

/-- An arm of the function to texts gives its text. -/
theorem filterMap_conversionMark?_toArm {v : String} (hv : isName v) :
  ((armLines (Name.pascal v) (inQuotes v)).map String.toList).filterMap conversionMark?
    = [.entry v]
  := by
  have hquote : '"' ∉ (Name.pascal v).toList :=
    not_mem_of_isAlphanum (fun _ => Name.isAlphanum_of_mem_pascal) (by decide)
  have hblank : ' ' ∉ (Name.pascal v).toList :=
    not_mem_of_isAlphanum (fun _ => Name.isAlphanum_of_mem_pascal) (by decide)
  have hpattern : conversionMark? ("        " ++ Name.pascal v ++ " ->").toList = none := by
    apply conversionMark?_eq_none
    · apply not_resultStart_prefix
      simpa using hquote
    · simp [List.count_eq_zero_of_not_mem hblank]
  have hresult : conversionMark? ("            " ++ inQuotes v).toList = some (.entry v) := by
    have hstart : resultStart.isPrefixOf ("            " ++ inQuotes v).toList := by
      rw [List.isPrefixOf_iff_prefix, String.toList_append, resultStart_prefix_iff]
      simp [inQuotes]
    have hdrop : ("            " ++ inQuotes v).toList.drop 12 = (inQuotes v).toList := by
      rw [String.toList_append]
      rfl
    rw [conversionMark?, if_pos hstart, hdrop,
      readLiteral?_inQuotes fun _ => isPlain_of_mem_name hv]
    rfl
  simp only [armLines, List.map_cons, List.filterMap_cons, hpattern, hresult, List.map_nil,
    List.filterMap_nil]

/-- An arm of the function from texts gives nothing. -/
theorem filterMap_conversionMark?_fromArm {v : String} (hv : isName v) :
  ((armLines (inQuotes v) ("Just " ++ Name.pascal v)).map String.toList).filterMap conversionMark?
    = []
  := by
  have hblank : ' ' ∉ (Name.pascal v).toList :=
    not_mem_of_isAlphanum (fun _ => Name.isAlphanum_of_mem_pascal) (by decide)
  have hpattern : conversionMark? ("        " ++ inQuotes v ++ " ->").toList = none := by
    apply conversionMark?_eq_none
    · have hstart : resultStart = "        ".toList ++ "    \"".toList := by decide
      rw [String.append_assoc, String.toList_append, hstart, List.prefix_append_right_inj]
      simp [inQuotes]
    · simp [inQuotes, List.count_eq_zero_of_not_mem (blank_not_mem_name hv)]
  have hresult : conversionMark? ("            " ++ ("Just " ++ Name.pascal v)).toList = none := by
    apply conversionMark?_eq_none
    · rw [String.toList_append, resultStart_prefix_iff]
      simp
    · simp [List.count_eq_zero_of_not_mem hblank]
  simp only [armLines, List.map_cons, List.filterMap_cons, hpattern, hresult, List.map_nil,
    List.filterMap_nil]

/-- The head of a function gives what its signature gives. -/
theorem filterMap_conversionMark?_functionHead
    {function : String} (hfunction : ∀ c ∈ function.toList, c.isAlphanum) (signature : String) :
  ((functionHead function signature).map String.toList).filterMap conversionMark?
    = (conversionMark? (function ++ " : " ++ signature).toList).toList
  := by
  have hquote : '"' ∉ function.toList := not_mem_of_isAlphanum hfunction (by decide)
  have hblank : ' ' ∉ function.toList := not_mem_of_isAlphanum hfunction (by decide)
  have hequation : conversionMark? (function ++ " x =").toList = none := by
    apply conversionMark?_eq_none
    · apply not_resultStart_prefix
      simpa using hquote
    · simp [List.count_eq_zero_of_not_mem hblank]
  have hcase : conversionMark? "    case x of".toList = none := by decide
  simp only [functionHead, List.map_cons, List.filterMap_cons, hequation, hcase, List.map_nil,
    List.filterMap_nil]
  cases conversionMark? (function ++ " : " ++ signature).toList <;> rfl

/-- The signature of the function to texts opens the enum. -/
theorem conversionMark?_toSignature {name : String} (h : isName name) :
  conversionMark? (toStringName name ++ " : " ++ (name ++ " -> String")).toList
    = some (.opening name)
  := by
  have hquote : '"' ∉ (toStringName name).toList :=
    not_mem_of_isAlphanum (fun _ => isAlphanum_of_mem_toStringName) (by decide)
  have hblank : ' ' ∉ (toStringName name).toList :=
    not_mem_of_isAlphanum (fun _ => isAlphanum_of_mem_toStringName) (by decide)
  have hstart : ¬resultStart.isPrefixOf
      (toStringName name ++ " : " ++ (name ++ " -> String")).toList := by
    rw [List.isPrefixOf_iff_prefix]
    apply not_resultStart_prefix
    simpa [hquote] using not_mem_of_isName h (c := '"') (by decide)
  have hwords : wordsOf (toStringName name ++ " : " ++ (name ++ " -> String"))
      = [(toStringName name).toList, [':'], name.toList, ['-', '>'], "String".toList] := by
    have hafter : wordsOf (name ++ " -> String") = name.toList :: wordsOf "-> String" :=
      Text.wordsOf_eq_cons (by simp) (blank_not_mem_name h)
    have hcolon : wordsOf (": " ++ (name ++ " -> String"))
        = [':'] :: wordsOf (name ++ " -> String") :=
      Text.wordsOf_eq_cons (by simp) (by decide)
    have hfunction : wordsOf (toStringName name ++ " : " ++ (name ++ " -> String"))
        = (toStringName name).toList :: wordsOf (": " ++ (name ++ " -> String")) :=
      Text.wordsOf_eq_cons (by simp) hblank
    rw [hfunction, hcolon, hafter]
    rfl
  rw [conversionMark?, if_neg hstart, String.ofList_toList, hwords]
  simp

/-- The signature of the function from texts gives nothing. -/
theorem conversionMark?_fromSignature {name : String} (h : isName name) :
  conversionMark? (fromStringName name ++ " : " ++ ("String -> Maybe " ++ name)).toList = none
  := by
  have hquote : '"' ∉ (fromStringName name).toList :=
    not_mem_of_isAlphanum (fun _ => isAlphanum_of_mem_fromStringName) (by decide)
  have hblank : ' ' ∉ (fromStringName name).toList :=
    not_mem_of_isAlphanum (fun _ => isAlphanum_of_mem_fromStringName) (by decide)
  apply conversionMark?_eq_none
  · apply not_resultStart_prefix
    simpa [hquote] using not_mem_of_isName h (c := '"') (by decide)
  · simp [List.count_eq_zero_of_not_mem hblank,
      List.count_eq_zero_of_not_mem (blank_not_mem_name h)]

/-- Of the lines of the conversions of an enum, the first one opens it, and each of its values
has one line that gives it. -/
theorem filterMap_conversionMark? {e : EnumDef} (h : ∀ n ∈ e.names, isName n) :
  (filledLines e.conversions.render).filterMap conversionMark?
    = .opening e.name :: e.values.map .entry
  := by
  obtain ⟨hname, hvalues⟩ := EnumDef.forall_names_iff.mp h
  have hto : ∀ c ∈ (toStringName e.name).toList, c.isAlphanum :=
    fun _ => isAlphanum_of_mem_toStringName
  have hfrom : ∀ c ∈ (fromStringName e.name).toList, c.isAlphanum :=
    fun _ => isAlphanum_of_mem_fromStringName
  have hwildcard : ((armLines "_" "Nothing").map String.toList).filterMap conversionMark? = [] := by
    decide
  rw [EnumDef.filledLines_conversions h]
  simp only [List.map_append, List.filterMap_append, List.map_flatMap, List.filterMap_flatMap,
    filterMap_conversionMark?_functionHead hto, filterMap_conversionMark?_functionHead hfrom,
    conversionMark?_toSignature hname, conversionMark?_fromSignature hname, hwildcard,
    List.flatMap_congr fun v hv => filterMap_conversionMark?_toArm (hvalues v hv),
    List.flatMap_eq_nil_iff.mpr fun v hv => filterMap_conversionMark?_fromArm (hvalues v hv)]
  simp [← List.map_eq_flatMap]

/-! ### Object types -/

/-- The mark of a line of a decoder. The first line opens it, and each field has a line. -/
def decoderMark? (line : List Char) : Option (Mark (String × Decoder)) :=
  match decodedType? line with
  | some typeName => some (.opening typeName)
  | none => (readRequired? line).map .entry

theorem readRequired?_eq_none {line : List Char} (h : ¬"        |> required ".toList <+: line) :
  readRequired? line = none
  := by
  have hprefix : "        |> required ".toList.isPrefixOf? line = none := by
    rw [Option.eq_none_iff_forall_ne_some]
    intro rest hrest
    apply h
    exact ⟨rest, List.isPrefixOf?_eq_some_iff_append_eq.mp hrest⟩
  rw [readRequired?, hprefix]
  rfl

/-- Of the lines of the decoder of an object type, the first one opens it, and each of its
fields has one line that gives it. -/
theorem filterMap_decoderMark? {r : RecordDef} (h : ∀ n ∈ r.names, isName n) :
  (filledLines r.decoder.render).filterMap decoderMark?
    = .opening r.name :: r.decoderFields.map .entry
  := by
  obtain ⟨hname, hfields⟩ := RecordDef.forall_names_iff.mp h
  obtain ⟨hfirst, hsecond⟩ := decodedType?_decoderHead hname
  have hopening : decoderMark? (decoderName r.name ++ " : Decoder " ++ r.name).toList
      = some (.opening r.name) := by
    rw [decoderMark?, hfirst]
  have hequation : decoderMark? (decoderName r.name ++ " =").toList = none := by
    rw [decoderMark?, hsecond, readRequired?_eq_none]
    · rfl
    · simp [decoderName]
  have hseed : decoderMark? ("    Decode.succeed " ++ r.seed.render).toList = none := by
    rw [decoderMark?, decodedType?_eq_none_of_head (by simp), readRequired?_eq_none]
    · rfl
    · simp
  have hentry : ∀ f ∈ r.fields, decoderMark? (requiredLine (f.name, f.type.decoder)).toList
      = some (.entry (f.name, f.type.decoder)) := by
    intro f hf
    have hhead : decodedType? (requiredLine (f.name, f.type.decoder)).toList = none := by
      apply decodedType?_eq_none_of_head
      rw [requiredLine_mk]
      simp
    rw [decoderMark?, hhead, readRequired?_requiredLine (hfields f hf).1 (hfields f hf).2]
    rfl
  have hentries : (r.fields.map fun f => (requiredLine (f.name, f.type.decoder)).toList).filterMap
      decoderMark? = r.decoderFields.map .entry := by
    rw [List.filterMap_map, RecordDef.decoderFields, List.map_map, ← List.filterMap_eq_map]
    apply List.filterMap_congr
    intro f hf
    simp only [Function.comp_apply, hentry f hf]
  rw [RecordDef.filledLines_decoder h, lines_decoder]
  simp only [List.map_cons, List.filterMap_cons, hopening, hequation, hseed, List.map_map,
    Function.comp_def, hentries]

/-! ### Input types -/

/-- The mark of a line of a record type. The first line opens it, and each field has a line. -/
def recordMark? (line : List Char) : Option (Mark (String × ElmType)) :=
  match "type alias ".toList.isPrefixOf? line with
  | some rest => (" =".toList.isSuffixOf? rest).map fun name => .opening (String.ofList name)
  | none => ((readField? "\x7b" line).or (readField? "," line)).map .entry

theorem readField?_eq_none
    {opening : String} {line : List Char} (h : ¬("    " ++ opening ++ " ").toList <+: line) :
  readField? opening line = none
  := by
  have hprefix : ("    " ++ opening ++ " ").toList.isPrefixOf? line = none := by
    rw [Option.eq_none_iff_forall_ne_some]
    intro rest hrest
    apply h
    exact ⟨rest, List.isPrefixOf?_eq_some_iff_append_eq.mp hrest⟩
  rw [readField?, hprefix]
  rfl

theorem recordMark?_opening (name : String) :
  recordMark? ("type alias " ++ name ++ " =").toList = some (.opening name)
  := by
  have hprefix : "type alias ".toList.isPrefixOf? ("type alias " ++ name ++ " =").toList
      = some (name ++ " =").toList := by
    rw [List.isPrefixOf?_eq_some_iff_append_eq]
    simp
  have hsuffix : " =".toList.isSuffixOf? (name ++ " =").toList = some name.toList := by
    rw [List.isSuffixOf?_eq_some_iff_append_eq]
    simp
  rw [recordMark?, hprefix]
  simp only [hsuffix, Option.map_some, String.ofList_toList]

/-- A line of a record type that does not open it is read as that of a field. -/
theorem recordMark?_of_head {line : List Char} (h : line.head? = some ' ') :
  recordMark? line = ((readField? "\x7b" line).or (readField? "," line)).map .entry
  := by
  have hprefix : "type alias ".toList.isPrefixOf? line = none := by
    rw [Option.eq_none_iff_forall_ne_some]
    intro rest hrest
    rw [← List.isPrefixOf?_eq_some_iff_append_eq.mp hrest] at h
    simp at h
  rw [recordMark?, hprefix]

section

variable (name : String) {t : FieldType} (ht : isName t.typeName)
include ht

theorem recordMark?_firstField :
  recordMark? (fieldLine "\x7b" (Name.camel name, t.elmType)).toList
    = some (.entry (Name.camel name, t.elmType))
  := by
  rw [recordMark?_of_head (by simp [fieldLine]), readField?_fieldLine "\x7b" name ht]
  rfl

theorem recordMark?_nextField :
  recordMark? (fieldLine "," (Name.camel name, t.elmType)).toList
    = some (.entry (Name.camel name, t.elmType))
  := by
  have hfirst : readField? "\x7b" (fieldLine "," (Name.camel name, t.elmType)).toList = none := by
    apply readField?_eq_none
    simp [fieldLine]
  rw [recordMark?_of_head (by simp [fieldLine]), hfirst, readField?_fieldLine "," name ht]
  rfl

end

/-- Of the lines of a record type, the first one opens it, and each of its fields has one line
that gives it. -/
theorem filterMap_recordMark? {r : RecordDef} (h : ∀ n ∈ r.names, isName n) :
  (filledLines r.record.render).filterMap recordMark?
    = .opening r.name :: r.recordFields.map .entry
  := by
  obtain ⟨-, hfields⟩ := RecordDef.forall_names_iff.mp h
  rw [RecordDef.filledLines_record h, lines_record, List.map_cons, List.filterMap_cons,
    recordMark?_opening]
  dsimp only
  congr 1
  rw [RecordDef.recordFields]
  cases hcases : r.fields with
  | nil => decide
  | cons f fields =>
      obtain ⟨hf, hrest⟩ := List.forall_mem_cons.mp (hcases ▸ hfields)
      have hclosing : recordMark? "    \x7d".toList = none := by decide
      have hnext : (fields.map fun g => (fieldLine "," (Name.camel g.name, g.type.elmType)).toList
          ).filterMap recordMark?
          = fields.map fun g => .entry (Name.camel g.name, g.type.elmType) := by
        rw [List.filterMap_map, ← List.filterMap_eq_map]
        apply List.filterMap_congr
        intro g hg
        simp only [Function.comp_apply, recordMark?_nextField g.name (hrest g hg).2]
      simp only [List.map_cons, recordLines, List.cons_append, List.map_append, List.map_map,
        Function.comp_def, List.filterMap_cons, recordMark?_firstField f.name hf.2,
        List.filterMap_append, hnext, List.map_nil, hclosing, List.filterMap_nil, List.append_nil]

/-! ### Reading back -/

section

variable {s : Schema} {name : String} (hname : '\n' ∉ name.toList) (h : ∀ n ∈ s.names, isName n)
  (extras : Extras)
include hname h

/-- The marks under the title of a section, from the marks of each of its declarations. -/
theorem Schema.filterMap_linesUnder
    {α β : Type} {title : String} {mark? : List Char → Option (Mark α)} {xs : List β}
    {declaration : β → Declaration} {block : β → String × List α}
    (hpart : (s.sections extras).filter (fun part => part.title == title)
      = [⟨title, xs.map declaration⟩])
    (hmark : ∀ x ∈ xs, (filledLines (declaration x).render).filterMap mark?
      = .opening (block x).1 :: (block x).2.map .entry) :
  (linesUnder title (filledLines (s.toModule name extras).render)).filterMap mark?
    = marksOf (xs.map block)
  := by
  rw [linesUnder_render hname h, hpart, List.flatMap_singleton, Section.bodyLines, List.flatMap_map,
    List.filterMap_flatMap, List.flatMap_congr hmark, marksOf, List.flatMap_map]

theorem Schema.marks_enums :
  (linesUnder "ENUMS STRING CONVERSIONS" (filledLines (s.toModule name extras).render)).filterMap
      conversionMark?
    = marksOf (s.enums.map fun e => (e.name, e.values))
  := by
  obtain ⟨henums, -, -⟩ := forall_names_iff.mp h
  apply filterMap_linesUnder hname h extras rfl
  exact fun e he => filterMap_conversionMark? (henums e he)

theorem Schema.marks_objects :
  (linesUnder "TYPES DECODERS" (filledLines (s.toModule name extras).render)).filterMap decoderMark?
    = marksOf (s.objects.map fun r => (r.name, r.decoderFields))
  := by
  obtain ⟨-, hobjects, -⟩ := forall_names_iff.mp h
  apply filterMap_linesUnder hname h extras rfl
  exact fun r hr => filterMap_decoderMark? (hobjects r hr)

theorem Schema.marks_inputs (hextras : extras.withInputs) :
  (linesUnder "INPUTS DEFINITIONS" (filledLines (s.toModule name extras).render)).filterMap
      recordMark?
    = marksOf (s.inputs.map fun r => (r.name, r.recordFields))
  := by
  obtain ⟨-, -, hinputs⟩ := forall_names_iff.mp h
  apply filterMap_linesUnder hname h extras _ fun r hr => filterMap_recordMark? (hinputs r hr)
  simp [sections, hextras]

end

end ElmSchema
