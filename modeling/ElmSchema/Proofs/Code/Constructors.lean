import ElmSchema.Proofs.Code.Lines
import ElmSchema.Proofs.Schema.Analysis

/-!
# Constructors of a module

The constructors of all union types of a module are in one scope. An enum that gives no warning
has distinct constructors, but a warning is about one enum and never about two, so a module
without warnings may still declare a constructor twice. It does so exactly if two of its enums
share a constructor.

The constructors are those that the lines of the module declare. A line declares a union type
if it starts with `type`, a name and an equals sign. The line of a record has a second word
before its name, and no other line starts with `type`.
-/

namespace ElmSchema

open Document (isName)
open Text (filledLines linesOf)

/-- The constructors of an enum, one for each value. -/
def EnumDef.constructors (e : EnumDef) : List String :=
  e.values.map Name.pascal

/-! ### Reading union types -/

/-- The name and the constructors of the union type that a line declares. -/
def declaredUnion? (line : List Char) : Option (String × List String) :=
  ("type ".toList.isPrefixOf? line).bind fun rest =>
    let name := String.ofList (rest.takeWhile (· != ' '))
    (readUnion? name (String.ofList line)).map (name, ·)

/-- The union types that the lines of a text declare. -/
def declaredUnions (text : String) : List (String × List String) :=
  (linesOf text).filterMap declaredUnion?

/-- After `type`, the name of a union type ends with the first blank. -/
theorem declaredUnion?_type {name : String} (hname : ' ' ∉ name.toList) (rest : List Char) :
  declaredUnion? ("type ".toList ++ (name.toList ++ ' ' :: rest))
    = (readUnion? name (String.ofList ("type ".toList ++ (name.toList ++ ' ' :: rest)))).map
      (name, ·)
  := by
  have hword : (name.toList ++ ' ' :: rest).takeWhile (· != ' ') = name.toList := by
    rw [List.takeWhile_append_of_pos]
    · simp
    · intro c hc
      rw [bne_iff_ne]
      rintro rfl
      exact hname hc
  rw [declaredUnion?, List.isPrefixOf?_eq_some_iff_append_eq.mpr rfl, Option.bind_some]
  simp only [hword, String.ofList_toList]

theorem declaredUnion?_eq_none {line : List Char} (h : ¬"type ".toList <+: line) :
  declaredUnion? line = none
  := by
  have hprefix : "type ".toList.isPrefixOf? line = none := by
    rw [Option.eq_none_iff_forall_ne_some]
    intro rest hrest
    apply h
    exact ⟨rest, List.isPrefixOf?_eq_some_iff_append_eq.mp hrest⟩
  rw [declaredUnion?, hprefix]
  rfl

theorem declaredUnion?_eq_none_of_head {line : List Char} (h : line.head? ≠ some 't') :
  declaredUnion? line = none
  := by
  apply declaredUnion?_eq_none
  rintro ⟨rest, rfl⟩
  exact h rfl

/-- A line that starts with a long word declares nothing. -/
theorem declaredUnion?_eq_none_of_word
    {word line : List Char} (hword : ∀ c ∈ word, c.isAlphanum) (hlength : 5 ≤ word.length)
    (h : word <+: line) :
  declaredUnion? line = none
  := by
  apply declaredUnion?_eq_none
  intro htype
  have hblank : ' ' ∈ word := by
    apply (List.prefix_of_prefix_length_le htype h hlength).subset
    decide
  simpa using hword ' ' hblank

/-! ### Lines of declarations -/

section

variable {e : EnumDef} (h : ∀ n ∈ e.names, isName n)
include h

theorem filterMap_declaredUnion?_union (hne : e.values ≠ []) :
  (filledLines e.union.render).filterMap declaredUnion? = [(e.name, e.constructors)]
  := by
  obtain ⟨hname, -⟩ := EnumDef.forall_names_iff.mp h
  have hline : e.union.render.toList = "type ".toList ++ (e.name.toList ++ ' ' :: '=' ::
      Text.dropEnd Text.isBlank
        (' ' :: " | ".toList.intercalate ((e.values.map Name.pascal).map String.toList))) := by
    rw [toList_render_union]
    simp
  have hunion : declaredUnion? e.union.render.toList = some (e.name, e.constructors) := by
    rw [hline, declaredUnion?_type (blank_not_mem_name hname), ← hline, String.ofList_toList,
      readUnion?_union hne]
    rfl
  rw [EnumDef.filledLines_union h, List.filterMap_cons_some hunion, List.filterMap_nil]

theorem filterMap_declaredUnion?_conversions :
  (filledLines e.conversions.render).filterMap declaredUnion? = []
  := by
  rw [List.filterMap_eq_nil_iff]
  intro line hline
  rcases EnumDef.start_conversions h hline with hblank | hstart | hstart
  · apply declaredUnion?_eq_none_of_head
    rw [hblank]
    decide
  · apply declaredUnion?_eq_none_of_word (fun _ => isAlphanum_of_mem_toStringName) _ hstart
    simp [toStringName]
  · apply declaredUnion?_eq_none_of_word (fun _ => isAlphanum_of_mem_fromStringName) _ hstart
    simp [fromStringName]

theorem filterMap_declaredUnion?_enumDecoder :
  (filledLines e.decoder.render).filterMap declaredUnion? = []
  := by
  rw [EnumDef.filledLines_decoder h, EnumDef.linesOf_decoder h, List.filterMap_eq_nil_iff]
  intro line hline
  apply declaredUnion?_eq_none_of_head
  simp only [List.mem_cons, List.not_mem_nil, or_false] at hline
  rcases hline with rfl | rfl | rfl
  all_goals simp [decoderName]

end

section

variable {r : RecordDef} (h : ∀ n ∈ r.names, isName n)
include h

theorem filterMap_declaredUnion?_record :
  (filledLines r.record.render).filterMap declaredUnion? = []
  := by
  obtain ⟨hname, -⟩ := RecordDef.forall_names_iff.mp h
  rw [RecordDef.filledLines_record h, List.filterMap_eq_nil_iff, List.forall_mem_map, lines_record]
  intro line hline
  rcases List.mem_cons.mp hline with rfl | hline
  · -- The word after `type` is followed by the name of the record and not by the equals sign.
    have halias : ("type alias " ++ r.name ++ " =").toList
        = "type ".toList ++ ("alias".toList ++ ' ' :: (r.name ++ " =").toList) := by
      simp
    have hunion : readUnion? "alias" ("type alias " ++ r.name ++ " =") = none := by
      obtain ⟨c, cs, hcs⟩ := List.exists_cons_of_ne_nil (Document.toList_ne_nil_of_isName hname)
      have hc : c ≠ '=' := by
        rintro rfl
        exact Document.not_mem_of_isName hname (by decide) (hcs ▸ List.mem_cons_self)
      simp [readUnion?, hcs, List.isPrefixOf?, hc.symm]
    rw [halias, declaredUnion?_type (by decide), ← halias, String.ofList_toList, hunion]
    rfl
  · apply declaredUnion?_eq_none_of_head
    rw [head?_recordLines hline]
    decide

theorem filterMap_declaredUnion?_recordDecoder :
  (filledLines r.decoder.render).filterMap declaredUnion? = []
  := by
  rw [RecordDef.filledLines_decoder h, List.filterMap_eq_nil_iff, List.forall_mem_map,
    lines_decoder]
  intro line hline
  apply declaredUnion?_eq_none_of_head
  revert line
  simp [decoderName, requiredLine_mk]

end

theorem filterMap_declaredUnion?_textDecoder :
  (filledLines Declaration.textDecoder.render).filterMap declaredUnion? = []
  := by
  rw [filledLines_textDecoder]
  decide

/-- The union types that a module declares are those of the enums of its schema, in order. -/
theorem Schema.declaredUnions_render
    {s : Schema} {name : String} (hname : '\n' ∉ name.toList) (h : ∀ n ∈ s.names, isName n)
    (hne : ∀ e ∈ s.enums, e.values ≠ []) (extras : Extras) :
  declaredUnions (s.toModule name extras).render
    = s.enums.map fun e => (e.name, e.constructors)
  := by
  obtain ⟨henums, hobjects, hinputs⟩ := forall_names_iff.mp h
  have hreader : ∀ line : List Char, line.head? = some 'm' ∨ line.head? = some 'i' ∨
      line.head? = some '-' → declaredUnion? line = none := by
    intro line hline
    apply declaredUnion?_eq_none_of_head
    rcases hline with h | h | h <;> simp [h]
  have hinputs : (if extras.withInputs then s.inputs else []).flatMap
      (fun r => (filledLines r.record.render).filterMap declaredUnion?) = [] := by
    rw [List.flatMap_eq_nil_iff]
    split
    · exact fun r hr => filterMap_declaredUnion?_record (hinputs r hr)
    · simp
  rw [declaredUnions, Text.filterMap_linesOf rfl, s.filterMap_filledLines hname extras hreader,
    flatMap_sections, hinputs, filterMap_declaredUnion?_textDecoder,
    List.flatMap_congr fun e he => filterMap_declaredUnion?_union (henums e he) (hne e he),
    List.flatMap_eq_nil_iff.mpr fun r hr => filterMap_declaredUnion?_record (hobjects r hr),
    List.flatMap_eq_nil_iff.mpr fun e he => filterMap_declaredUnion?_conversions (henums e he),
    List.flatMap_eq_nil_iff.mpr fun e he => filterMap_declaredUnion?_enumDecoder (henums e he),
    List.flatMap_eq_nil_iff.mpr fun r hr => filterMap_declaredUnion?_recordDecoder (hobjects r hr)]
  simp [← List.map_eq_flatMap]

/-! ### Warnings and clashes -/

/-- Nothing that the analysis reports is a warning. -/
def IsQuiet (events : List Event) : Prop :=
  ∀ event ∈ events, event.level ≠ .warning

instance (events : List Event) : Decidable (IsQuiet events) :=
  inferInstanceAs (Decidable (∀ event ∈ events, event.level ≠ .warning))

theorem level_of_mem_closingEvents
    {doc : Document} {s : Schema} {event : Event} (h : event ∈ Document.closingEvents doc s) :
  event.level = .debug
  := by
  rw [Document.closingEvents] at h
  rcases List.mem_append.mp h with h | h
  · split at h
    · simp at h
    · obtain rfl := List.mem_singleton.mp h
      rfl
  · obtain rfl := List.mem_singleton.mp h
    rfl

/-- A run is quiet if and only if each enum has values with distinct constructors. -/
theorem isQuiet_iff (doc : Document) (moduleName : String) (s : Schema) :
  IsQuiet (Document.openingEvents doc moduleName ++ Document.closingEvents doc s) ↔
    ∀ e ∈ Document.enums doc, e.values ≠ [] ∧ e.constructors.Nodup
  := by
  simp only [EnumDef.constructors, ← EnumDef.warnings_eq_nil_iff]
  constructor
  · intro h e he
    rw [List.eq_nil_iff_forall_not_mem]
    intro event hevent
    apply h event _ (EnumDef.level_of_mem_warnings hevent)
    apply List.mem_append_left
    apply List.mem_cons_of_mem
    exact List.mem_flatMap.mpr ⟨e, he, hevent⟩
  · intro h event hevent
    have hwarnings : Document.enumWarnings doc = [] := List.flatMap_eq_nil_iff.mpr h
    rw [Document.openingEvents, hwarnings] at hevent
    rcases List.mem_append.mp hevent with hevent | hevent
    · obtain rfl := List.mem_singleton.mp hevent
      simp [Event.level]
    · simp [level_of_mem_closingEvents hevent]

/-- The constructors of enums, each without a repetition, are distinct if and only if no two
of the enums share one. -/
theorem nodup_flatMap_constructors_iff
    {es : List EnumDef} (h : ∀ e ∈ es, e.constructors.Nodup) :
  (es.flatMap EnumDef.constructors).Nodup ↔
    es.Pairwise fun e e' => e.constructors.Disjoint e'.constructors
  := by
  rw [List.nodup_flatMap]
  exact and_iff_right h

/-- What it means for a run to be quiet. Each enum then has constructors, and they are distinct;
those of all enums together are distinct if and only if no two enums share one, and they are
what the union types in the text declare. -/
theorem constructors_distinct_iff
    {source : Source} {calls : Nat} {doc : Document} {moduleName : String} {extras : Extras}
    {events : List Event} {text : String} (hread : source.read (calls + 2) = .ok doc)
    (hrun : source.generate calls moduleName extras = (events, .ok text)) :
  (IsQuiet events ↔ ∀ e ∈ Document.enums doc, e.values ≠ [] ∧ e.constructors.Nodup) ∧
  (IsQuiet events → (((Document.enums doc).flatMap EnumDef.constructors).Nodup ↔
    (Document.enums doc).Pairwise fun e e' => e.constructors.Disjoint e'.constructors)) ∧
  (IsQuiet events → (∀ d ∈ doc, d.isNamed) → '\n' ∉ moduleName.toList →
    declaredUnions text = (Document.enums doc).map fun e => (e.name, e.constructors))
  := by
  obtain ⟨s, hschema, rfl, rfl⟩ := (generate_eq_ok_iff hread).mp hrun
  have hquiet := isQuiet_iff doc moduleName s
  refine ⟨hquiet, ?_, ?_⟩
  · intro h
    apply nodup_flatMap_constructors_iff
    exact fun e he => (hquiet.mp h e he).2
  · intro h hdoc hmodule
    rw [(schema_eq_ok_iff.mp hschema).1] at hquiet ⊢
    apply Schema.declaredUnions_render hmodule (isName_of_schema hdoc hschema)
    exact fun e he => (hquiet.mp h e he).1

/-- Two enums with different names and the same value. -/
def clashingDocument : Document :=
  [.enum "Color" [.value "RED"], .enum "Light" [.value "RED"]]

/-- The constructor that the two enums share is declared twice, and there is no warning. -/
theorem constructors_distinct_iff_clashing :
  ∃ text, (Source.document clashingDocument).generate 0 "M" {}
      = ([.parsed 2 "M", .extracted 2 0 0], .ok text) ∧
    declaredUnions text = [("Color", ["Red"]), ("Light", ["Red"])] ∧
    ¬((Document.enums clashingDocument).flatMap EnumDef.constructors).Nodup
  := by
  have hrun : (Source.document clashingDocument).generate 0 "M" {}
      = ([.parsed 2 "M", .extracted 2 0 0], .ok _) := rfl
  obtain ⟨hquiet, hdistinct, hunions⟩ := constructors_distinct_iff rfl hrun
  have h : IsQuiet [.parsed 2 "M", .extracted 2 0 0] := hquiet.mpr (by decide)
  refine ⟨_, hrun, hunions h (by decide) (by decide), ?_⟩
  rw [hdistinct h]
  intro hpairwise
  have hdisjoint : ["Red"].Disjoint ["Red"] :=
    List.rel_of_pairwise_cons hpairwise List.mem_cons_self
  exact hdisjoint List.mem_cons_self List.mem_cons_self

/-- Distinct type names and no warning do not make the constructors of a module distinct. -/
theorem quiet_with_clashing_constructors :
  ¬∀ (doc : Document) (moduleName : String) (events : List Event) (s : Schema),
    (s.enums.map EnumDef.name ++ s.objects.map RecordDef.name ++
      s.inputs.map RecordDef.name).Nodup →
    Document.analyze moduleName doc = (events, .ok s) → IsQuiet events →
    (s.enums.flatMap EnumDef.constructors).Nodup
  := by
  intro h
  have hclash := h clashingDocument "M" [.parsed 2 "M", .extracted 2 0 0]
    ⟨[⟨"Color", ["RED"]⟩, ⟨"Light", ["RED"]⟩], [], []⟩ (by decide) rfl (by decide)
  revert hclash
  decide

end ElmSchema
