import ElmSchema.Code.Module
import ElmSchema.Proofs.Code.Enum
import ElmSchema.Proofs.Code.Record
import ElmSchema.Proofs.Schema.Names

/-!
# Lines of a module

The text of a module is a sequence of pieces, each ended by a newline: the lines of its head,
and for each section the lines of its banner and the texts of its declarations, with empty
pieces in between. Trimming changes nothing, since no declaration ends with a blank. So the
lines of the text are those of the head, of the banners and of the declarations, in order.
-/

namespace ElmSchema

open Document (isName)

/-! ### Pieces that are ended -/

namespace Text

/-- The text of some pieces, each ended by a newline. -/
def ended (pieces : List String) : String :=
  String.join (pieces.map fun piece => piece ++ "\n")

@[simp]
theorem ended_nil :
  ended [] = ""
  := rfl

@[simp]
theorem ended_cons (piece : String) (pieces : List String) :
  ended (piece :: pieces) = piece ++ "\n" ++ ended pieces
  := by
  simp [ended]

theorem ended_append (pieces more : List String) :
  ended (pieces ++ more) = ended pieces ++ ended more
  := by
  induction pieces with
  | nil => simp
  | cons piece pieces ih => simp [ih, String.append_assoc]

theorem join_map_ended {α : Type} (f : α → List String) (xs : List α) :
  String.join (xs.map fun x => ended (f x)) = ended (xs.flatMap f)
  := by
  induction xs with
  | nil => rfl
  | cons x xs ih => rw [List.map_cons, String.join_cons, ih, List.flatMap_cons, ended_append]

/-- The lines of ended pieces are those of the pieces, and an empty one. -/
theorem linesOf_ended (pieces : List String) :
  linesOf (ended pieces) = pieces.flatMap linesOf ++ [[]]
  := by
  induction pieces with
  | nil => rfl
  | cons piece pieces ih =>
      have hsplit : linesOf (piece ++ "\n" ++ ended pieces)
          = linesOf piece ++ linesOf (ended pieces) := by
        simp [linesOf, List.splitOn_append_cons_self]
      rw [ended_cons, hsplit, ih, List.flatMap_cons, List.append_assoc]

/-- If the last piece does not end with a blank, only its newline is trimmed. -/
theorem trimNewlines_ended
    {pieces : List String} {last : String} (hlast : pieces.getLast? = some last)
    (hfilled : isFilled last) :
  trimNewlines (ended pieces) ++ "\n" = ended pieces
  := by
  obtain ⟨init, rfl⟩ := List.getLast?_eq_some_iff.mp hlast
  simp only [isFilled, Option.any_eq_true, Bool.not_eq_true'] at hfilled
  obtain ⟨c, hc, hblank⟩ := hfilled
  obtain ⟨cs, hcs⟩ := List.getLast?_eq_some_iff.mp hc
  have hne : (c == '\n') = false := by
    rw [beq_eq_false_iff_ne]
    rintro rfl
    simp [isBlank] at hblank
  have htext : (ended (init ++ [last])).toList = ((ended init).toList ++ cs) ++ c :: ['\n'] := by
    simp [ended_append, hcs]
  rw [← String.toList_inj, String.toList_append, trimNewlines, String.toList_ofList, htext,
    dropEnd_append_cons (p := fun c => c == '\n') hne]
  simp [dropEnd]

/-- A text with a character that is not blank is trimmed to one that ends with such. -/
theorem isFilled_trimEnd {s : String} {c : Char} (hmem : c ∈ s.toList) (hc : isBlank c = false) :
  isFilled (trimEnd s)
  := by
  have hne : s.toList.reverse.dropWhile isBlank ≠ [] := by
    rw [ne_eq, List.dropWhile_eq_nil_iff]
    intro hall
    simp [hall c (List.mem_reverse.mpr hmem)] at hc
  have hhead := List.head_dropWhile_not isBlank hne
  simp [isFilled, trimEnd, dropEnd, List.head?_eq_some_head hne, hhead]

end Text

/-- No declaration ends with a blank. -/
theorem Declaration.isFilled_render (d : Declaration) :
  Text.isFilled d.render
  := by
  have hfirst : ∃ first rest c, d.lines = first :: rest ∧ c ∈ first.toList ∧
      Text.isBlank c = false := by
    cases d with
    | union name constructors => exact ⟨_, _, 't', rfl, by simp, rfl⟩
    | record name fields => exact ⟨_, _, 't', rfl, by simp, rfl⟩
    | conversions c => exact ⟨_, _, 'T', rfl, by simp [toStringName], rfl⟩
    | enumDecoder name => exact ⟨_, _, 'd', rfl, by simp [decoderName], rfl⟩
    | recordDecoder name fields => exact ⟨_, _, 'd', rfl, by simp [decoderName], rfl⟩
    | textDecoder => exact ⟨_, _, 'd', rfl, by simp, rfl⟩
  obtain ⟨first, rest, c, hlines, hmem, hc⟩ := hfirst
  apply Text.isFilled_trimEnd _ hc
  rw [hlines]
  cases rest with
  | nil => simpa using hmem
  | cons next rest => simp [String.intercalate_cons_cons, hmem]

/-! ### Pieces of a module -/

/-- Pieces with two empty ones between two of them. -/
def spaced : List String → List String
  | [] => []
  | [piece] => [piece]
  | piece :: rest => piece :: "" :: "" :: spaced rest

theorem ended_spaced {pieces : List String} (hne : pieces ≠ []) :
  Text.ended (spaced pieces) = "\n\n\n".intercalate pieces ++ "\n"
  := by
  fun_induction spaced pieces with
  | case1 => exact absurd rfl hne
  | case2 piece => simp
  | case3 piece rest hrest ih =>
      obtain ⟨next, more, rfl⟩ := List.exists_cons_of_ne_nil hrest
      simp [ih, String.intercalate_cons_cons, ← String.toList_inj]

theorem mem_spaced {piece : String} {pieces : List String} (h : piece ∈ pieces) :
  piece ∈ spaced pieces
  := by
  fun_induction spaced pieces with
  | case1 => exact h
  | case2 => exact h
  | case3 first rest hrest ih =>
      rcases List.mem_cons.mp h with rfl | h
      · apply List.mem_cons_self
      · simp [ih h]

/-- The pieces of the head of a module. -/
def headPieces (name : String) : List String :=
  ["module " ++ name ++ " exposing (..)", "", "import Json.Decode as Decode exposing (Decoder)",
    "import Json.Decode.Pipeline exposing (required)"]

/-- The pieces of a section. -/
def Section.pieces (part : Section) : List String :=
  ["", "", "--", "-- " ++ part.title, "--", "", ""] ++
    spaced (part.declarations.map Declaration.render)

/-- The pieces of a module. -/
def Module.pieces (m : Module) : List String :=
  headPieces m.name ++ m.sections.flatMap Section.pieces

theorem ended_headPieces (name : String) :
  Text.ended (headPieces name) = moduleHead name
  := by
  simp [headPieces, moduleHead, ← String.toList_inj]

theorem Section.ended_pieces {part : Section} (h : part.declarations ≠ []) :
  Text.ended part.pieces = part.render
  := by
  rw [pieces, Text.ended_append, ended_spaced (by simpa using h), Section.render]
  simp [← String.toList_inj]

theorem getLast?_spaced (pieces : List String) :
  (spaced pieces).getLast? = pieces.getLast?
  := by
  fun_induction spaced pieces with
  | case1 => rfl
  | case2 piece => rfl
  | case3 piece rest hrest ih =>
      obtain ⟨next, more, rfl⟩ := List.exists_cons_of_ne_nil hrest
      simp [List.getLast?_cons, ih]

/-- The last piece of a module does not end with a blank. -/
theorem Module.exists_last_pieces {m : Module} (h : ∀ part ∈ m.sections, part.declarations ≠ []) :
  ∃ last, m.pieces.getLast? = some last ∧ Text.isFilled last
  := by
  obtain ⟨name, sections⟩ := m
  rcases List.eq_nil_or_concat' sections with rfl | ⟨init, part, rfl⟩
  · use "import Json.Decode.Pipeline exposing (required)", rfl
    decide
  · obtain ⟨declarations, d, hd⟩ : ∃ declarations d, part.declarations = declarations ++ [d] := by
      rcases List.eq_nil_or_concat' part.declarations with hnil | h'
      · exact absurd hnil (h part (by simp))
      · exact h'
    use d.render
    constructor
    · have hspaced := getLast?_spaced ((declarations ++ [d]).map Declaration.render)
      simp_all [pieces, Section.pieces, List.getLast?_append, List.getLast?_cons]
    · apply d.isFilled_render

/-- The text of a module is the text of its pieces, each ended. -/
theorem Module.render_eq_ended {m : Module} (h : ∀ part ∈ m.sections, part.declarations ≠ []) :
  m.render = Text.ended m.pieces
  := by
  have hsections : m.sections.map Section.render
      = m.sections.map fun part => Text.ended part.pieces := by
    apply List.map_congr_left
    exact fun part hpart => (Section.ended_pieces (h part hpart)).symm
  obtain ⟨last, hlast, hfilled⟩ := exists_last_pieces h
  rw [Module.render, hsections, Text.join_map_ended, ← ended_headPieces, ← Text.ended_append]
  exact Text.trimNewlines_ended hlast hfilled

/-! ### Lines -/

/-- The lines of the head of a module that are not empty. -/
def headLines (name : String) : List (List Char) :=
  [("module " ++ name ++ " exposing (..)").toList,
    "import Json.Decode as Decode exposing (Decoder)".toList,
    "import Json.Decode.Pipeline exposing (required)".toList]

/-- The lines of the banner over a section that are not empty. -/
def bannerLines (title : String) : List (List Char) :=
  ["--".toList, ("-- " ++ title).toList, "--".toList]

namespace Text

/-- The lines of a text that are not empty. -/
def filledLines (s : String) : List (List Char) :=
  (linesOf s).filter fun line => !line.isEmpty

theorem mem_linesOf {s : String} {line : List Char} (h : line ∈ filledLines s) :
  line ∈ linesOf s
  := List.mem_of_mem_filter h

theorem filledLines_ended (pieces : List String) :
  filledLines (ended pieces) = pieces.flatMap filledLines
  := by
  rw [filledLines, linesOf_ended, List.filter_append, List.filter_flatMap, List.filter_singleton]
  exact List.append_nil _

theorem filledLines_of_not_mem {s : String} (h : '\n' ∉ s.toList) (hne : s.toList ≠ []) :
  filledLines s = [s.toList]
  := by
  rw [filledLines, linesOf_of_not_mem h]
  simpa using hne

@[simp]
theorem filledLines_empty :
  filledLines "" = []
  := rfl

/-- Where empty lines give nothing, the other lines give all. -/
theorem filterMap_linesOf
    {α : Type} {reader : List Char → Option α} (h : reader [] = none) (s : String) :
  (linesOf s).filterMap reader = (filledLines s).filterMap reader
  := by
  rw [filledLines, List.filterMap_filter]
  apply List.filterMap_congr
  intro line _
  split
  · rfl
  · rename_i hempty
    obtain rfl : line = [] := by simpa using hempty
    exact h

theorem filledLines_spaced (pieces : List String) :
  (spaced pieces).flatMap filledLines = pieces.flatMap filledLines
  := by
  fun_induction spaced pieces with
  | case1 => rfl
  | case2 piece => rfl
  | case3 piece rest hrest ih => simp [ih]

end Text

open Text (filledLines)

theorem filledLines_headPieces {name : String} (h : '\n' ∉ name.toList) :
  (headPieces name).flatMap filledLines = headLines name
  := by
  have hmodule : filledLines ("module " ++ name ++ " exposing (..)")
      = [("module " ++ name ++ " exposing (..)").toList] := by
    apply Text.filledLines_of_not_mem
    · simpa using h
    · simp
  rw [headPieces, List.flatMap_cons, hmodule]
  rfl

theorem head?_headLines {name : String} {line : List Char} (h : line ∈ headLines name) :
  line.head? = some 'm' ∨ line.head? = some 'i'
  := by
  simp only [headLines, List.mem_cons, List.not_mem_nil, or_false] at h
  rcases h with rfl | rfl | rfl
  · simp
  · right
    rfl
  · right
    rfl

theorem head?_bannerLines {title : String} {line : List Char} (h : line ∈ bannerLines title) :
  line.head? = some '-'
  := by
  simp only [bannerLines, List.mem_cons, List.not_mem_nil, or_false] at h
  rcases h with rfl | rfl | rfl
  · rfl
  · simp
  · rfl

/-- The lines of a section: those of its banner, and those of its declarations. -/
def Section.filledLines (part : Section) : List (List Char) :=
  bannerLines part.title ++ part.declarations.flatMap fun d => Text.filledLines d.render

theorem Section.filledLines_pieces {part : Section} (h : '\n' ∉ part.title.toList) :
  part.pieces.flatMap Text.filledLines = part.filledLines
  := by
  have htitle : Text.filledLines ("-- " ++ part.title) = [("-- " ++ part.title).toList] := by
    apply Text.filledLines_of_not_mem
    · simpa using h
    · simp
  rw [pieces, List.flatMap_append, Text.filledLines_spaced, List.flatMap_map]
  simp [htitle, filledLines, bannerLines]
  rfl

/-- The titles of the sections of a schema. -/
def sectionTitles : List String :=
  ["ENUMS DEFINITIONS", "TYPES DEFINITIONS", "INPUTS DEFINITIONS", "ENUMS STRING CONVERSIONS",
    "ENUMS DECODERS", "TYPES DECODERS", "UTILS"]

theorem Schema.map_title_sections (s : Schema) (extras : Extras) :
  (s.sections extras).map Section.title = sectionTitles
  := rfl

theorem Schema.title_mem {s : Schema} {name : String} {extras : Extras} {part : Section}
    (h : part ∈ (s.toModule name extras).sections) :
  part.title ∈ sectionTitles
  := by
  simp only [toModule, List.mem_filter] at h
  rw [← s.map_title_sections extras]
  exact List.mem_map_of_mem h.1

/-- The lines of the module of a schema: those of its head, and those of its sections. -/
theorem Schema.filledLines_render
    (s : Schema) {name : String} (hname : '\n' ∉ name.toList) (extras : Extras) :
  filledLines (s.toModule name extras).render
    = headLines name ++ (s.toModule name extras).sections.flatMap Section.filledLines
  := by
  have hne : ∀ part ∈ (s.toModule name extras).sections, part.declarations ≠ [] := by
    simp [toModule]
  have htitles : ∀ title ∈ sectionTitles, '\n' ∉ title.toList := by
    decide
  rw [Module.render_eq_ended hne, Text.filledLines_ended, Module.pieces, List.flatMap_append,
    List.flatMap_assoc]
  congr 1
  · exact filledLines_headPieces hname
  · apply List.flatMap_congr
    intro part hpart
    exact Section.filledLines_pieces (htitles _ (title_mem hpart))

/-- What holds of each kind of declaration holds of all declarations of a schema. -/
theorem Schema.forall_declarations
    {P : Declaration → Prop} {s : Schema} {extras : Extras} (hunion : ∀ e ∈ s.enums, P e.union)
    (hobject : ∀ r ∈ s.objects, P r.record) (hinput : ∀ r ∈ s.inputs, P r.record)
    (hconversions : ∀ e ∈ s.enums, P e.conversions) (henum : ∀ e ∈ s.enums, P e.decoder)
    (hdecoder : ∀ r ∈ s.objects, P r.decoder) (htext : P .textDecoder) :
  ∀ part ∈ s.sections extras, ∀ d ∈ part.declarations, P d
  := by
  simp only [sections, List.forall_mem_cons, List.forall_mem_map]
  refine ⟨hunion, hobject, ?_, hconversions, henum, hdecoder, ?_, by simp⟩
  · split
    · simpa using hinput
    · simp
  · split
    · simpa using htext
    · simp

/-- Sections without declarations have nothing to give. -/
theorem flatMap_filter_sections {α : Type} (f : Declaration → List α) (sections : List Section) :
  (sections.filter fun part => !part.declarations.isEmpty).flatMap
      (fun part => part.declarations.flatMap f)
    = sections.flatMap fun part => part.declarations.flatMap f
  := by
  induction sections with
  | nil => rfl
  | cons part rest ih =>
      rw [List.filter_cons]
      split
      · rw [List.flatMap_cons, List.flatMap_cons, ih]
      · rename_i hempty
        have hnil : part.declarations = [] := by simpa using hempty
        rw [List.flatMap_cons, ih, hnil]
        rfl

/-- What the declarations of a schema give, kind by kind. -/
theorem Schema.flatMap_sections
    (s : Schema) (extras : Extras) {α : Type} (f : Declaration → List α) :
  ((s.sections extras).flatMap fun part => part.declarations.flatMap f)
    = s.enums.flatMap (fun e => f e.union) ++ s.objects.flatMap (fun r => f r.record) ++
      (if extras.withInputs then s.inputs else []).flatMap (fun r => f r.record) ++
      s.enums.flatMap (fun e => f e.conversions) ++ s.enums.flatMap (fun e => f e.decoder) ++
      s.objects.flatMap (fun r => f r.decoder) ++ if extras.withUtils then f .textDecoder else []
  := by
  have hinputs : (if extras.withInputs then s.inputs.map RecordDef.record else [])
      = (if extras.withInputs then s.inputs else []).map RecordDef.record := by
    split <;> rfl
  have hutils : (if extras.withUtils then [Declaration.textDecoder] else []).flatMap f
      = if extras.withUtils then f .textDecoder else [] := by
    split <;> simp
  simp only [sections, hinputs, List.flatMap_cons, List.flatMap_nil, List.flatMap_map, hutils,
    List.append_assoc, List.append_nil]

/-- What is read from the lines of a module one by one is read from its declarations, if the
lines that start as those of the head and of the banners give nothing. -/
theorem Schema.filterMap_filledLines
    (s : Schema) {name : String} (hname : '\n' ∉ name.toList) (extras : Extras) {α : Type}
    {reader : List Char → Option α}
    (hreader : ∀ line, line.head? = some 'm' ∨ line.head? = some 'i' ∨ line.head? = some '-' →
      reader line = none) :
  (filledLines (s.toModule name extras).render).filterMap reader
    = (s.sections extras).flatMap fun part =>
        part.declarations.flatMap fun d => (filledLines d.render).filterMap reader
  := by
  have hhead : (headLines name).filterMap reader = [] := by
    rw [List.filterMap_eq_nil_iff]
    intro line hline
    apply hreader
    rcases head?_headLines hline with h | h
    · exact .inl h
    · exact .inr (.inl h)
  have hbanner : ∀ title, (bannerLines title).filterMap reader = [] := by
    intro title
    rw [List.filterMap_eq_nil_iff]
    intro line hline
    apply hreader
    exact .inr (.inr (head?_bannerLines hline))
  have hsection : ∀ part ∈ (s.toModule name extras).sections,
      part.filledLines.filterMap reader
        = part.declarations.flatMap fun d => (filledLines d.render).filterMap reader := by
    intro part _
    rw [Section.filledLines, List.filterMap_append, hbanner, List.filterMap_flatMap]
    rfl
  rw [s.filledLines_render hname, List.filterMap_append, hhead, List.filterMap_flatMap,
    List.nil_append, List.flatMap_congr hsection]
  apply flatMap_filter_sections

/-- The lines of a declaration stand together in the text of the module. -/
theorem Schema.linesOf_render_infix
    {s : Schema} {name : String} {extras : Extras} {part : Section} {d : Declaration}
    (hpart : part ∈ s.sections extras) (hd : d ∈ part.declarations) :
  Text.linesOf d.render <:+: Text.linesOf (s.toModule name extras).render
  := by
  have hne : ∀ part ∈ (s.toModule name extras).sections, part.declarations ≠ [] := by
    simp [toModule]
  have hkept : part ∈ (s.toModule name extras).sections := by
    simp only [toModule, List.mem_filter]
    use hpart
    simpa using List.ne_nil_of_mem hd
  have hpiece : d.render ∈ (s.toModule name extras).pieces := by
    rw [Module.pieces]
    apply List.mem_append_right
    rw [List.mem_flatMap]
    use part, hkept
    apply List.mem_append_right
    apply mem_spaced
    exact List.mem_map_of_mem hd
  obtain ⟨before, after, hpieces⟩ := List.append_of_mem hpiece
  rw [Module.render_eq_ended hne, Text.linesOf_ended, hpieces]
  use before.flatMap Text.linesOf, after.flatMap Text.linesOf ++ [[]]
  simp

/-! ### Lines of declarations -/

/-- The lines of a declaration whose last line does not end with a blank. -/
theorem Declaration.filledLines_render
    {d : Declaration} {last : String} (hlast : d.lines.getLast? = some last)
    (hfilled : Text.isFilled last) :
  filledLines d.render = d.lines.flatMap filledLines
  := by
  rw [filledLines, linesOf_render hlast hfilled, List.filter_flatMap]
  rfl

/-- Texts without newlines that are not empty are their lines. -/
theorem flatMap_filledLines
    {texts : List String} (h : ∀ s ∈ texts, '\n' ∉ s.toList ∧ s.toList ≠ []) :
  texts.flatMap filledLines = texts.map String.toList
  := by
  rw [List.map_eq_flatMap]
  apply List.flatMap_congr
  intro s hs
  exact Text.filledLines_of_not_mem (h s hs).1 (h s hs).2

theorem flatMap_filledLines_separateLines :
  ∀ (parts : List (List String)), (separateLines parts).flatMap filledLines
    = parts.flatMap fun lines => lines.flatMap filledLines
  | [] => rfl
  | [lines] => by simp [separateLines]
  | lines :: next :: rest => by
      simp [separateLines, flatMap_filledLines_separateLines (next :: rest)]

theorem head?_armLines {pattern result line : String} (h : line ∈ armLines pattern result) :
  line.toList.head? = some ' '
  := by
  rcases List.mem_pair.mp h with rfl | rfl
  · simp
  · simp

theorem head?_recordLines
    {fields : List (String × ElmType)} {line : String} (h : line ∈ recordLines fields) :
  line.toList.head? = some ' '
  := by
  cases fields with
  | nil =>
      obtain rfl := List.mem_singleton.mp h
      rfl
  | cons field fields =>
      simp only [recordLines, List.mem_cons, List.mem_append, List.mem_map, List.not_mem_nil,
        or_false] at h
      rcases h with (rfl | ⟨g, -, rfl⟩) | rfl
      · simp [fieldLine]
      · simp [fieldLine]
      · rfl

theorem newline_not_mem_camel (name : String) :
  '\n' ∉ (Name.camel name).toList
  := by
  intro h
  simpa using Name.isAlphanum_of_mem_camel h

theorem newline_not_mem_dropEnd {p : Char → Bool} {cs : List Char} (h : '\n' ∉ cs) :
  '\n' ∉ Text.dropEnd p cs
  := by
  intro hmem
  apply h
  rw [Text.dropEnd, List.mem_reverse] at hmem
  exact List.mem_reverse.mp (List.dropWhile_subset p hmem)

theorem newline_not_mem_intercalate
    {separator : String} (hseparator : '\n' ∉ separator.toList) {texts : List String}
    (h : ∀ s ∈ texts, '\n' ∉ s.toList) :
  '\n' ∉ (separator.intercalate texts).toList
  := by
  induction texts with
  | nil => simp
  | cons s rest ih =>
      obtain ⟨hs, hrest⟩ := List.forall_mem_cons.mp h
      cases rest with
      | nil => simpa using hs
      | cons t rest =>
          rw [String.intercalate_cons_cons]
          simp only [String.toList_append, List.mem_append, not_or]
          exact ⟨⟨hs, hseparator⟩, ih hrest⟩

/-- The two lines of an arm. -/
theorem flatMap_filledLines_armLines
    {pattern result : String} (hpattern : '\n' ∉ pattern.toList) (hresult : '\n' ∉ result.toList) :
  (armLines pattern result).flatMap filledLines = (armLines pattern result).map String.toList
  := by
  apply flatMap_filledLines
  simp [armLines, hpattern, hresult]

namespace EnumDef

variable {e : EnumDef} (h : ∀ n ∈ e.names, isName n)
include h

/-- The union type of an enum is one line. -/
theorem filledLines_union :
  filledLines e.union.render = [e.union.render.toList]
  := by
  obtain ⟨hname, -⟩ := forall_names_iff.mp h
  have hconstructors : '\n' ∉ (" | ".intercalate (e.values.map Name.pascal)).toList := by
    apply newline_not_mem_intercalate (by decide)
    rw [List.forall_mem_map]
    exact fun v _ => newline_not_mem_pascal v
  apply Text.filledLines_of_not_mem
  · rw [union, Declaration.render, Declaration.lines, String.intercalate_singleton, Text.trimEnd,
      String.toList_ofList]
    apply newline_not_mem_dropEnd
    simp only [String.toList_append, List.mem_append, not_or]
    exact ⟨⟨⟨by decide, newline_not_mem_name hname⟩, by decide⟩, hconstructors⟩
  · rw [toList_render_union]
    simp

/-- The decoder of an enum is three lines. -/
theorem linesOf_decoder :
  Text.linesOf e.decoder.render
    = [(decoderName e.name ++ " : Decoder " ++ e.name).toList, (decoderName e.name ++ " =").toList,
      ("    decodeString " ++ fromStringName e.name).toList]
  := by
  obtain ⟨hname, -⟩ := forall_names_iff.mp h
  have hnewline := newline_not_mem_name hname
  have hfilled : Text.isFilled ("    decodeString " ++ fromStringName e.name) := by
    apply Text.isFilled_append
    apply Text.isFilled_append
    decide
  rw [linesOf_render rfl hfilled, Text.flatMap_linesOf_of_not_mem]
  · rfl
  · simp [decoder, Declaration.lines, decoderHead, decoderName, fromStringName, hnewline,
      newline_not_mem_camel]

theorem filledLines_decoder :
  filledLines e.decoder.render = Text.linesOf e.decoder.render
  := by
  rw [filledLines, linesOf_decoder h, List.filter_eq_self]
  simp

/-- The lines of the conversions of an enum: for each of the two functions three lines, and two
for each arm. -/
theorem filledLines_conversions :
  filledLines e.conversions.render
    = (functionHead (toStringName e.name) (e.name ++ " -> String") ++
      (e.values.flatMap fun v => armLines (Name.pascal v) (inQuotes v)) ++
      functionHead (fromStringName e.name) ("String -> Maybe " ++ e.name) ++
      (e.values.flatMap fun v => armLines (inQuotes v) ("Just " ++ Name.pascal v)) ++
      armLines "_" "Nothing").map String.toList
  := by
  obtain ⟨hname, hvalues⟩ := forall_names_iff.mp h
  have hnewline := newline_not_mem_name hname
  have hto : (separateLines (e.values.map fun v => armLines (Name.pascal v) (inQuotes v))).flatMap
      filledLines
        = (e.values.flatMap fun v => armLines (Name.pascal v) (inQuotes v)).map String.toList := by
    rw [flatMap_filledLines_separateLines, List.flatMap_map, List.map_flatMap]
    apply List.flatMap_congr
    intro v hv
    apply flatMap_filledLines_armLines (newline_not_mem_pascal v)
    exact newline_not_mem_inQuotes (hvalues v hv)
  have hfrom : (e.values.flatMap fun v =>
      armLines (inQuotes v) ("Just " ++ Name.pascal v) ++ [""]).flatMap filledLines
        = (e.values.flatMap fun v => armLines (inQuotes v) ("Just " ++ Name.pascal v)).map
          String.toList := by
    rw [List.flatMap_assoc, List.map_flatMap]
    apply List.flatMap_congr
    intro v hv
    rw [List.flatMap_append, flatMap_filledLines_armLines]
    · exact List.append_nil _
    · exact newline_not_mem_inQuotes (hvalues v hv)
    · simpa using newline_not_mem_pascal v
  have hwildcard : (armLines "_" "Nothing").flatMap filledLines
      = (armLines "_" "Nothing").map String.toList :=
    flatMap_filledLines_armLines (by decide) (by decide)
  have htoHead : (functionHead (toStringName e.name) (e.name ++ " -> String")).flatMap filledLines
      = (functionHead (toStringName e.name) (e.name ++ " -> String")).map String.toList := by
    apply flatMap_filledLines
    simp [functionHead, toStringName, newline_not_mem_camel, hnewline]
  have hfromHead :
      (functionHead (fromStringName e.name) ("String -> Maybe " ++ e.name)).flatMap filledLines
        = (functionHead (fromStringName e.name) ("String -> Maybe " ++ e.name)).map
          String.toList := by
    apply flatMap_filledLines
    simp [functionHead, fromStringName, newline_not_mem_camel, hnewline]
  have hlines : filledLines e.conversions.render = e.conversions.lines.flatMap filledLines := by
    rw [filledLines, linesOf_render_conversions, List.filter_flatMap]
    rfl
  rw [hlines, lines_conversions]
  simp only [List.flatMap_append, List.flatMap_cons, List.map_append, htoHead, hto, hfromHead,
    hfrom, hwildcard, Text.filledLines_empty, List.nil_append, List.append_assoc]

/-- A line of the conversions starts with a blank or with the name of one of the functions. -/
theorem start_conversions {line : List Char} (hline : line ∈ filledLines e.conversions.render) :
  line.head? = some ' ' ∨ (toStringName e.name).toList <+: line ∨
    (fromStringName e.name).toList <+: line
  := by
  have hhead : ∀ {function signature line : String}, line ∈ functionHead function signature →
      line.toList.head? = some ' ' ∨ function.toList <+: line.toList := by
    intro function signature line hline
    simp only [functionHead, List.mem_cons, List.not_mem_nil, or_false] at hline
    rcases hline with rfl | rfl | rfl
    · simp
    · simp
    · left
      rfl
  have harms : ∀ {f g : String → String} {line : String},
      (line ∈ e.values.flatMap fun v => armLines (f v) (g v)) → line.toList.head? = some ' ' := by
    intro f g line hline
    obtain ⟨v, -, hline⟩ := List.mem_flatMap.mp hline
    exact head?_armLines hline
  rw [filledLines_conversions h] at hline
  obtain ⟨text, htext, rfl⟩ := List.mem_map.mp hline
  simp only [List.mem_append] at htext
  rcases htext with (((htext | htext) | htext) | htext) | htext
  · exact (hhead htext).imp_right .inl
  · exact .inl (harms htext)
  · exact (hhead htext).imp_right .inr
  · exact .inl (harms htext)
  · exact .inl (head?_armLines htext)

end EnumDef

namespace RecordDef

variable {r : RecordDef} (h : ∀ n ∈ r.names, isName n)
include h

/-- No line of a record type is empty. -/
theorem filledLines_record :
  filledLines r.record.render = r.record.lines.map String.toList
  := by
  obtain ⟨hname, hfields⟩ := forall_names_iff.mp h
  obtain ⟨last, hlast, hfilled⟩ := exists_last_record r
  rw [Declaration.filledLines_render hlast hfilled, flatMap_filledLines]
  intro line hline
  use newline_not_mem_record hname (fun f hf => (hfields f hf).2) hline
  rcases List.mem_cons.mp hline with rfl | hline
  · simp
  · intro hnil
    have hhead := head?_recordLines hline
    simp [hnil] at hhead

/-- No line of the decoder of a record is empty. -/
theorem filledLines_decoder :
  filledLines r.decoder.render = r.decoder.lines.map String.toList
  := by
  obtain ⟨hname, hfields⟩ := forall_names_iff.mp h
  obtain ⟨last, hlast, hfilled⟩ := exists_last_decoder hfields
  rw [Declaration.filledLines_render hlast hfilled, flatMap_filledLines]
  intro line hline
  use newline_not_mem_decoder hname hfields hline
  rw [lines_decoder] at hline
  simp only [List.mem_cons, List.mem_map] at hline
  rcases hline with rfl | rfl | rfl | ⟨f, -, rfl⟩
  · simp
  · simp
  · simp
  · simp [requiredLine_mk]

end RecordDef

theorem filledLines_textDecoder :
  filledLines Declaration.textDecoder.render
    = (textDecoderLines.filter fun line => line != "").map String.toList
  := by
  rw [Declaration.filledLines_render rfl (by decide)]
  decide

end ElmSchema
