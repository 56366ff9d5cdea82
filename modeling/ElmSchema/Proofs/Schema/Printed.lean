import ElmSchema.Generation
import ElmSchema.Proofs.Schema.Entry

/-!
# Schemas of printed documents

A document is printed as its entries one after the other, with any gaps between the lexemes.
The main statement is that its analysis gives back the entries: the enums, the object types
and the input types, each kind in the order of the document.
-/

namespace ElmSchema

open Document

/-- The enum that an entry is. -/
def Entry.enum? : Entry → Option EnumDef
  | .enum e => some e
  | _ => none

/-- The object type that an entry is. -/
def Entry.object? : Entry → Option RecordDef
  | .object r => some r
  | _ => none

/-- The input type that an entry is. -/
def Entry.input? : Entry → Option RecordDef
  | .input r => some r
  | _ => none

/-- The schema of entries. -/
def Schema.ofEntries (es : List Entry) : Schema where
  enums := es.filterMap Entry.enum?
  objects := es.filterMap Entry.object?
  inputs := es.filterMap Entry.input?

/-! ### From definitions to the schema -/

/-- The records of one kind among entries are resolved from the definitions of this kind. -/
theorem resolveRecords_filterMap
    {record? : Entry → Option RecordDef} {nodes? : Definition → Option (String × List FieldNode)}
    (hkind : ∀ {e : Entry} {d : Definition}, e.DeclaredBy d →
      (record? e = none ∧ nodes? d = none) ∨ ∃ r nodes, record? e = some r ∧
        nodes? d = some (r.name, nodes) ∧ List.Forall₂ FieldDef.DeclaredBy r.fields nodes)
    {es : List Entry} {doc : Document} (h : List.Forall₂ Entry.DeclaredBy es doc) :
  resolveRecords (doc.filterMap nodes?) = .ok (es.filterMap record?)
  := by
  induction h with
  | nil => rfl
  | cons he _ ih =>
      rcases hkind he with ⟨hrecord, hnode⟩ | ⟨r, nodes, hrecord, hnode, hnodes⟩
      · rw [List.filterMap_cons_none hnode, List.filterMap_cons_none hrecord]
        apply ih
      · rw [List.filterMap_cons_some hnode, List.filterMap_cons_some hrecord, resolveRecords,
          resolveFields_eq_ok_iff.mpr hnodes, ih]
        rfl

section Declared

variable {es : List Entry} {doc : Document} (h : List.Forall₂ Entry.DeclaredBy es doc)
include h

theorem enums_eq :
  Document.enums doc = es.filterMap Entry.enum?
  := by
  induction h with
  | nil => rfl
  | cons he _ ih =>
      cases he with
      | enum e =>
          have hvalues : (e.values.map EnumMember.value).filterMap valueOf? = e.values := by
            simp [List.filterMap_map, Function.comp_def, valueOf?]
          simpa [Document.enums, enumOf?, Entry.enum?, hvalues] using ih
      | object r nodes _ => apply ih
      | input r nodes _ => apply ih

theorem objects_eq_ok :
  Document.objects doc = .ok (es.filterMap Entry.object?)
  := by
  apply resolveRecords_filterMap _ h
  intro e d hd
  cases hd with
  | enum e =>
      left
      constructor <;> rfl
  | object r nodes hnodes =>
      right
      use r, nodes, rfl, rfl, hnodes
  | input r nodes _ =>
      left
      constructor <;> rfl

theorem inputs_eq_ok :
  Document.inputs doc = .ok (es.filterMap Entry.input?)
  := by
  apply resolveRecords_filterMap _ h
  intro e d hd
  cases hd with
  | enum e =>
      left
      constructor <;> rfl
  | object r nodes _ =>
      left
      constructor <;> rfl
  | input r nodes hnodes =>
      right
      use r, nodes, rfl, rfl, hnodes

/-- The schema of definitions that declare entries. -/
theorem schema_eq_ok :
  Document.schema doc = .ok (Schema.ofEntries es)
  := by
  rw [schema_eq_ok_iff]
  use enums_eq h, objects_eq_ok h, inputs_eq_ok h

end Declared

/-! ### From the text to definitions -/

variable {calls : Nat}

/-- Entries are read one after the other up to the end of the document. -/
theorem reads_definitionsWithin (hcalls : calls + 18 ≤ maxCalls) :
  ∀ {e : Entry} {es : List Entry} {fuel : Nat}, es.length < fuel →
    (∀ x ∈ e :: es, x.isNamed) →
    Reads (Parser.definitionsWithin fuel) calls ((e :: es).flatMap Entry.lexemes) []
      fun doc => List.Forall₂ Entry.DeclaredBy (e :: es) doc
  | e, [], fuel + 1, _, h => by
      apply Reads.bind (Entry.reads_definition (h e List.mem_cons_self) [] hcalls)
      intro d hd
      apply Reads.bind Reads.current
      intro t ht
      obtain ht : t.lexeme = .eof := ht
      simp only [ht, beq_self_eq_true, if_true]
      apply Reads.pure
      apply List.Forall₂.cons hd List.Forall₂.nil
  | e, e' :: es, fuel + 1, hfuel, h => by
      obtain ⟨word, more, -, he'⟩ := e'.exists_lexemes_eq
      apply Reads.bind (Entry.reads_definition (h e List.mem_cons_self) (e' :: es) hcalls)
      intro d hd
      apply Reads.bind Reads.current
      intro t ht
      obtain ht : t.lexeme = .name word := by simpa [he'] using ht
      have heof : (Lexeme.name word == .eof) = false := by simp
      simp only [ht, heof, Bool.false_eq_true, if_false]
      apply Reads.bind (reads_definitionsWithin hcalls (Nat.lt_of_succ_lt_succ hfuel)
        fun x hx => h x (List.mem_cons_of_mem e hx))
      intro doc hdoc
      apply Reads.pure
      apply List.Forall₂.cons hd hdoc

/-- There are at least as many lexemes as entries. -/
theorem length_le_entries (es : List Entry) :
  es.length ≤ (es.flatMap Entry.lexemes).length
  := by
  induction es with
  | nil => apply Nat.le_refl
  | cons e es ih =>
      obtain ⟨word, more, -, he⟩ := e.exists_lexemes_eq
      rw [List.flatMap_cons, he, List.length_append, List.length_cons, List.length_cons]
      omega

/-- A document of entries is read. -/
theorem reads_document
    {es : List Entry} (hcalls : calls + 20 ≤ maxCalls) (hes : es ≠ []) (h : ∀ e ∈ es, e.isNamed) :
  Reads Parser.document calls (es.flatMap Entry.lexemes) []
    fun doc => List.Forall₂ Entry.DeclaredBy es doc
  := by
  obtain ⟨e, es, rfl⟩ := List.exists_cons_of_ne_nil hes
  apply Reads.rule
  apply Reads.rule
  apply Reads.bind Reads.uncover
  intro _ _
  apply Reads.bind Reads.steps
  rintro _ rfl
  have hfuel : es.length < ((e :: es).flatMap Entry.lexemes).length + 1 := by
    have := length_le_entries (e :: es)
    rw [List.length_cons] at this
    omega
  apply reads_definitionsWithin (by omega) hfuel h

/-- The text of entries is read as definitions that declare them. -/
theorem exists_read_printPieces
    (calls : Nat) {es : List Entry} {lead : List Char} {pieces : List Piece}
    (hcalls : calls + 21 ≤ maxCalls) (hes : es ≠ []) (hnamed : ∀ e ∈ es, e.isNamed)
    (hlead : isGap lead) (hspaced : IsSpaced pieces)
    (hpieces : pieces.map Piece.lexeme = es.flatMap Entry.lexemes) :
  ∃ doc, Document.read calls (printPieces lead pieces) = .ok doc ∧
    List.Forall₂ Entry.DeclaredBy es doc
  := by
  have hwords : ∀ p ∈ pieces, p.lexeme.isWord := by
    intro p hp
    have hmem : p.lexeme ∈ es.flatMap Entry.lexemes := by
      rw [← hpieces]
      apply List.mem_map_of_mem hp
    obtain ⟨e, he, hl⟩ := List.mem_flatMap.mp hmem
    apply Entry.isWord_of_mem_lexemes (hnamed e he) hl
  have hshows := shows_lex_printPieces hlead hwords hspaced
  rw [hpieces] at hshows
  have hreads : Reads Parser.document (calls + 1) (es.flatMap Entry.lexemes) []
      fun doc => List.Forall₂ Entry.DeclaredBy es doc := reads_document (by omega) hes hnamed
  obtain ⟨doc, c, hrun, -, hdoc⟩ := hreads _ hshows
  use doc, run_eq_ok hrun, hdoc

/-! ### Analysis -/

/-- The analysis of a printed document gives back its entries: the schema has exactly their
enums, object types and input types, each kind in the order of the document, with their
members in order and all names unchanged. The document may have any entries in any order, as
long as there is one, and any gaps, as long as there is one between two names. There has to be
room for 23 further calls. -/
theorem analyze_printPieces
    (calls : Nat) (moduleName : String) (es : List Entry) (lead : List Char) (pieces : List Piece)
    (hcalls : calls + 23 ≤ maxCalls) (hes : es ≠ []) (hnamed : ∀ e ∈ es, e.isNamed)
    (hlead : isGap lead) (hspaced : IsSpaced pieces)
    (hpieces : pieces.map Piece.lexeme = es.flatMap Entry.lexemes) :
  ((Source.text (printPieces lead pieces)).analyze calls moduleName).2 = .ok (Schema.ofEntries es)
  := by
  obtain ⟨doc, hread, hdoc⟩ := exists_read_printPieces (calls + 1 + 1) (by omega) hes hnamed
    hlead hspaced hpieces
  simp only [Source.analyze, Source.read, hread, Document.analyze, schema_eq_ok hdoc]

/-- Entries that have keywords as names, the first and the last of them without members. -/
theorem analyze_printPieces_keywords :
  ((Source.text "enum type,type input\x7benum:[Int!]type:input\x7d\ninput enum").analyze 3 "Main").2
    = .ok ⟨[⟨"type", []⟩],
        [⟨"input", [⟨"enum", ⟨"Int", true, true⟩⟩, ⟨"type", ⟨"input", false, false⟩⟩]⟩],
        [⟨"enum", []⟩]⟩
  := by
  have hspaced : IsSpaced
      [⟨.name "enum", [' ']⟩, ⟨.name "type", [',']⟩, ⟨.name "type", [' ']⟩, ⟨.name "input", []⟩,
        ⟨.punct .braceL, []⟩, ⟨.name "enum", []⟩, ⟨.punct .colon, []⟩, ⟨.punct .bracketL, []⟩,
        ⟨.name "Int", []⟩, ⟨.punct .bang, []⟩, ⟨.punct .bracketR, []⟩, ⟨.name "type", []⟩,
        ⟨.punct .colon, []⟩, ⟨.name "input", []⟩, ⟨.punct .braceR, ['\n']⟩,
        ⟨.name "input", [' ']⟩, ⟨.name "enum", []⟩] := by
    constructor <;> decide
  apply analyze_printPieces 3 "Main"
    [.enum ⟨"type", []⟩,
      .object ⟨"input", [⟨"enum", ⟨"Int", true, true⟩⟩, ⟨"type", ⟨"input", false, false⟩⟩]⟩,
      .input ⟨"enum", []⟩]
    [] _ (by decide) (by decide) (by decide) (by decide) hspaced (by decide)

end ElmSchema
