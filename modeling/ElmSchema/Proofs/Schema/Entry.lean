import ElmSchema.Proofs.Document.Parsing
import ElmSchema.Proofs.Schema.Resolution

/-!
# Entries of a schema document

An entry of a document is an enum, an object type or an input type. Here is how it is written,
without descriptions, arguments, default values and directives, and what the parser reads
where it is written: a definition that declares it. What follows an entry are the other
entries, so after an entry without members comes a keyword or the end of the document.

A definition and an entry are related by what they declare and not by equality, since nodes
for lists also know their place in the text.
-/

namespace ElmSchema

open Document

variable {calls : Nat} {rest : List Lexeme}

/-! ### Types of fields -/

/-- The lexemes of a mark that a value is required, or of none. -/
def markLexemes (isRequired : Bool) : List Lexeme :=
  if isRequired then [.punct .bang] else []

/-- A type node, with a mark or without. -/
def markNode (isRequired : Bool) (node : TypeNode) : TypeNode :=
  if isRequired then .nonNull node else node

/-- A mark is read if there is one. -/
theorem reads_mark
    (isRequired : Bool) (node : TypeNode) (hcalls : calls + 9 ≤ maxCalls)
    (hrest : rest.head? ≠ some (.punct .bang)) :
  Reads (do if ← Parser.accept .bang then return .nonNull node else return node)
    calls (markLexemes isRequired ++ rest) rest fun marked => marked = markNode isRequired node
  := by
  cases isRequired with
  | true =>
      apply Reads.bind (Reads.accept hcalls)
      rintro _ rfl
      apply Reads.pure
      rfl
  | false =>
      apply Reads.bind (Reads.accept_none hrest)
      rintro _ rfl
      apply Reads.pure
      rfl

namespace FieldType

/-- The lexemes of the name in a type, with its mark. -/
def innerLexemes (t : FieldType) : List Lexeme :=
  .name t.typeName :: markLexemes t.isRequired

/-- The lexemes of the type of a field. -/
def lexemes (t : FieldType) : List Lexeme :=
  if t.isList then .punct .bracketL :: (t.innerLexemes ++ [.punct .bracketR])
  else t.innerLexemes

/-- The name in a type is read, with its mark. -/
theorem reads_innerLexemes
    (t : FieldType) (depth : Nat) (hcalls : calls + 12 ≤ maxCalls)
    (hrest : rest.head? ≠ some (.punct .bang)) :
  Reads (Parser.typeReferenceWithin (depth + 1)) calls (t.innerLexemes ++ rest) rest
    fun node => node = markNode t.isRequired (.named t.typeName)
  := by
  have hname : (t.innerLexemes ++ rest).head? ≠ some (.punct .bracketL) := by
    simp [innerLexemes]
  apply Reads.rule
  apply Reads.bind Reads.current
  intro _ _
  apply Reads.bind (Reads.accept_none hname)
  rintro _ rfl
  apply Reads.bind (Reads.rule (Reads.name (by omega)))
  rintro _ rfl
  rw [pure_bind]
  apply reads_mark t.isRequired _ (by omega) hrest

/-- The type of a field is read: a node that is resolved to it. -/
theorem reads_lexemes
    (t : FieldType) (hcalls : calls + 13 ≤ maxCalls) (hrest : rest.head? ≠ some (.punct .bang)) :
  Reads Parser.typeReference calls (t.lexemes ++ rest) rest fun node => ofNode node = .ok t
  := by
  obtain ⟨typeName, isRequired, isList⟩ := t
  cases isList with
  | false =>
      apply (reads_innerLexemes ⟨typeName, isRequired, false⟩ _ (by omega) hrest).imp
      rintro _ rfl
      cases isRequired <;> rfl
  | true =>
      have hclose : (.punct .bracketR :: rest : List Lexeme).head? ≠ some (.punct .bang) := by
        simp
      have hlexemes : lexemes ⟨typeName, isRequired, true⟩ ++ rest
          = .punct .bracketL :: (innerLexemes ⟨typeName, isRequired, true⟩
              ++ .punct .bracketR :: rest) := by
        simp [lexemes]
      rw [hlexemes]
      apply Reads.rule
      apply Reads.bind Reads.current
      intro _ _
      apply Reads.bind (Reads.accept (by omega))
      rintro _ rfl
      apply Reads.bind (reads_innerLexemes _ _ (by omega) hclose)
      rintro _ rfl
      apply Reads.bind (Reads.expect (by omega))
      intro _ _
      rw [pure_bind]
      apply (reads_mark false _ (by omega) hrest).imp
      rintro _ rfl
      cases isRequired <;> rfl

end FieldType

/-! ### Members -/

/-- The lexemes of a field. -/
def FieldDef.lexemes (f : FieldDef) : List Lexeme :=
  .name f.name :: .punct .colon :: f.type.lexemes

/-- A field of an object type is read. -/
theorem readsMember_fieldDefinition (f : FieldDef) (hcalls : calls + 14 ≤ maxCalls) :
  ReadsMember Parser.fieldDefinition calls f.lexemes f.DeclaredBy
  := by
  constructor
  · use f.name, .punct .colon :: f.type.lexemes
    rfl
  · intro rest hrest
    apply Reads.rule
    apply Reads.bind Reads.description_none
    intro _ _
    apply Reads.bind (Reads.name (by omega))
    rintro _ rfl
    apply Reads.bind (Reads.argumentDefinitions_none (by simp))
    intro _ _
    apply Reads.bind (Reads.expect (by omega))
    intro _ _
    apply Reads.bind (f.type.reads_lexemes (by omega) (hrest.head?_ne (by decide)))
    intro node hnode
    apply Reads.bind (Reads.constDirectives_none (hrest.head?_ne (by decide)))
    intro _ _
    apply Reads.pure
    use rfl, hnode

/-- A field of an input type is read. -/
theorem readsMember_inputValue (f : FieldDef) (hcalls : calls + 14 ≤ maxCalls) :
  ReadsMember Parser.inputValue calls f.lexemes f.DeclaredBy
  := by
  constructor
  · use f.name, .punct .colon :: f.type.lexemes
    rfl
  · intro rest hrest
    apply Reads.rule
    apply Reads.bind Reads.description_none
    intro _ _
    apply Reads.bind (Reads.name (by omega))
    rintro _ rfl
    apply Reads.bind (Reads.expect (by omega))
    intro _ _
    apply Reads.bind (f.type.reads_lexemes (by omega) (hrest.head?_ne (by decide)))
    intro node hnode
    apply Reads.bind (Reads.defaultValue_none (hrest.head?_ne (by decide)))
    intro _ _
    apply Reads.bind (Reads.constDirectives_none (hrest.head?_ne (by decide)))
    intro _ _
    apply Reads.pure
    use rfl, hnode

/-- The names of constants, which no enum value has. -/
def reservedValues : List String :=
  ["true", "false", "null"]

/-- A value of an enum is read. -/
theorem readsMember_enumValue
    {v : String} (hcalls : calls + 12 ≤ maxCalls) (hv : v ∉ reservedValues) :
  ReadsMember Parser.enumValue calls [.name v] fun member => member = .value v
  := by
  constructor
  · use v, []
  · intro rest hrest
    apply Reads.rule
    apply Reads.bind Reads.description_none
    intro _ _
    have hname : Reads Parser.enumValueName (calls + 1) (.name v :: rest) rest fun w => w = v := by
      apply Reads.rule
      apply Reads.bind Reads.current
      intro t ht
      obtain ht : t.lexeme = .name v := ht
      rw [if_neg]
      · apply Reads.name (by omega)
      · simpa [ht, Lexeme.value?, reservedValues, and_assoc] using hv
    apply Reads.bind hname
    rintro _ rfl
    apply Reads.bind (Reads.constDirectives_none (hrest.head?_ne (by decide)))
    intro _ _
    apply Reads.pure
    rfl

/-! ### Entries -/

/-- The lexemes of an object or input type after its keyword. -/
def RecordDef.lexemes (r : RecordDef) : List Lexeme :=
  .name r.name :: block FieldDef.lexemes r.fields

/-- Whether all that an object or input type mentions has a name. -/
def RecordDef.isNamed (r : RecordDef) : Bool :=
  isName r.name && r.fields.all fun f => isName f.name && isName f.type.typeName

/-- An entry of a schema document. -/
inductive Entry where
  | enum (e : EnumDef)
  | object (r : RecordDef)
  | input (r : RecordDef)
deriving DecidableEq, Repr

namespace Entry

/-- The lexemes of an entry. Without members it has no braces. -/
def lexemes : Entry → List Lexeme
  | .enum e => .name "enum" :: .name e.name :: block (fun v => [.name v]) e.values
  | .object r => .name "type" :: r.lexemes
  | .input r => .name "input" :: r.lexemes

/-- Whether all that an entry mentions has a name, and no enum value a reserved one. -/
def isNamed : Entry → Bool
  | .enum e => isName e.name && e.values.all fun v => isName v && !reservedValues.contains v
  | .object r => r.isNamed
  | .input r => r.isNamed

/-- An entry is declared by a definition of its kind, name and members. -/
inductive DeclaredBy : Entry → Definition → Prop where
  | enum (e : EnumDef) : DeclaredBy (.enum e) (.enum e.name (e.values.map .value))
  | object (r : RecordDef) (nodes : List FieldNode) :
      List.Forall₂ FieldDef.DeclaredBy r.fields nodes →
        DeclaredBy (.object r) (.object r.name nodes)
  | input (r : RecordDef) (nodes : List FieldNode) :
      List.Forall₂ FieldDef.DeclaredBy r.fields nodes →
        DeclaredBy (.input r) (.input r.name nodes)

/-- An entry starts with its keyword. -/
theorem exists_lexemes_eq (e : Entry) :
  ∃ word more, word ∈ ["enum", "type", "input"] ∧ e.lexemes = .name word :: more
  := by
  cases e with
  | enum e => refine ⟨"enum", _, by decide, rfl⟩
  | object r => refine ⟨"type", _, by decide, rfl⟩
  | input r => refine ⟨"input", _, by decide, rfl⟩

/-- Entries follow an entry. -/
theorem isBoundary_entries (es : List Entry) :
  IsBoundary (es.flatMap lexemes)
  := by
  cases es with
  | nil => apply IsBoundary.ending
  | cons e es =>
      obtain ⟨word, more, -, he⟩ := e.exists_lexemes_eq
      rw [List.flatMap_cons, he]
      apply IsBoundary.name

/-- No entry starts with the keyword for interfaces. -/
theorem head?_entries_ne (es : List Entry) :
  (es.flatMap lexemes).head? ≠ some (.name "implements")
  := by
  cases es with
  | nil => simp
  | cons e es =>
      obtain ⟨word, more, hword, he⟩ := e.exists_lexemes_eq
      rw [List.flatMap_cons, he]
      rintro ⟨⟩
      revert hword
      decide

/-- The members that are read for the values of an enum. -/
theorem members_eq {values : List String} {members : List EnumMember}
    (h : List.Forall₂ (fun v member => member = .value v) values members) :
  members = values.map .value
  := by
  induction h with
  | nil => rfl
  | cons hv _ ih => rw [hv, ih, List.map_cons]

/-- An enum is read. -/
theorem reads_enum
    {e : EnumDef} (he : (Entry.enum e).isNamed) (hcalls : calls + 15 ≤ maxCalls)
    (hrest : IsBoundary rest) :
  Reads Parser.enumDefinition calls ((Entry.enum e).lexemes ++ rest) rest (Entry.enum e).DeclaredBy
  := by
  have hvalues : ∀ v ∈ e.values, ReadsMember Parser.enumValue (calls + 3) [.name v]
      fun member => member = .value v := by
    intro v hv
    apply readsMember_enumValue (by omega)
    simp only [isNamed, Bool.and_eq_true, List.all_eq_true] at he
    simpa using (he.2 v hv).2
  apply Reads.rule
  apply Reads.bind Reads.description_none
  intro _ _
  apply Reads.bind (Reads.keyword (by omega))
  intro _ _
  apply Reads.bind (Reads.name (by omega))
  rintro _ rfl
  apply Reads.bind (Reads.constDirectives_none
    (head?_block_ne (by simp) (hrest.head?_ne (by decide)) _))
  intro _ _
  apply Reads.bind (Reads.rule (reads_block (by omega) hvalues hrest))
  intro members hmembers
  apply Reads.pure
  obtain rfl := members_eq hmembers
  apply DeclaredBy.enum

/-- An object type is read. -/
theorem reads_object
    (r : RecordDef) (hcalls : calls + 17 ≤ maxCalls) (hrest : IsBoundary rest)
    (hinterfaces : rest.head? ≠ some (.name "implements")) :
  Reads Parser.objectDefinition calls ((Entry.object r).lexemes ++ rest) rest
    (Entry.object r).DeclaredBy
  := by
  have hfields : ∀ f ∈ r.fields, ReadsMember Parser.fieldDefinition (calls + 3) f.lexemes
      f.DeclaredBy := fun f _ => readsMember_fieldDefinition f (by omega)
  apply Reads.rule
  apply Reads.bind Reads.description_none
  intro _ _
  apply Reads.bind (Reads.keyword (by omega))
  intro _ _
  apply Reads.bind (Reads.name (by omega))
  rintro _ rfl
  apply Reads.bind (Reads.implementedInterfaces_none (head?_block_ne (by simp) hinterfaces _))
  intro _ _
  apply Reads.bind (Reads.constDirectives_none
    (head?_block_ne (by simp) (hrest.head?_ne (by decide)) _))
  intro _ _
  apply Reads.bind (Reads.rule (reads_block (by omega) hfields hrest))
  intro nodes hnodes
  apply Reads.pure
  apply DeclaredBy.object r nodes hnodes

/-- An input type is read. -/
theorem reads_input (r : RecordDef) (hcalls : calls + 17 ≤ maxCalls) (hrest : IsBoundary rest) :
  Reads Parser.inputDefinition calls ((Entry.input r).lexemes ++ rest) rest
    (Entry.input r).DeclaredBy
  := by
  have hfields : ∀ f ∈ r.fields, ReadsMember Parser.inputValue (calls + 3) f.lexemes
      f.DeclaredBy := fun f _ => readsMember_inputValue f (by omega)
  apply Reads.rule
  apply Reads.bind Reads.description_none
  intro _ _
  apply Reads.bind (Reads.keyword (by omega))
  intro _ _
  apply Reads.bind (Reads.name (by omega))
  rintro _ rfl
  apply Reads.bind (Reads.constDirectives_none
    (head?_block_ne (by simp) (hrest.head?_ne (by decide)) _))
  intro _ _
  apply Reads.bind (Reads.rule (reads_block (by omega) hfields hrest))
  intro nodes hnodes
  apply Reads.pure
  apply DeclaredBy.input r nodes hnodes

/-- A definition that starts with the keyword of a definition is read as that one. -/
theorem reads_definition_of_keyword
    {word : String} {body : Parser Definition} {more : List Lexeme} {P : Definition → Prop}
    (hbody : Parser.definitionOf? word = some body)
    (h : Reads body (calls + 1) (.name word :: more) rest P) :
  Reads Parser.definition calls (.name word :: more) rest P
  := by
  apply Reads.rule
  apply Reads.bind Reads.current
  intro t ht
  obtain ht : t.lexeme = .name word := ht
  have hbrace : (Lexeme.name word == .punct .braceL) = false := by simp
  simp only [ht, hbrace, Lexeme.isString, Bool.false_eq_true, if_false, pure_bind, hbody]
  apply h

/-- An entry is read where other entries follow. -/
theorem reads_definition
    {e : Entry} (he : e.isNamed) (es : List Entry) (hcalls : calls + 18 ≤ maxCalls) :
  Reads Parser.definition calls (e.lexemes ++ es.flatMap lexemes) (es.flatMap lexemes) e.DeclaredBy
  := by
  have hrest := isBoundary_entries es
  cases e with
  | enum e =>
      apply reads_definition_of_keyword rfl
      apply reads_enum he (by omega) hrest
  | object r =>
      apply reads_definition_of_keyword rfl
      apply reads_object r (by omega) hrest (head?_entries_ne es)
  | input r =>
      apply reads_definition_of_keyword rfl
      apply reads_input r (by omega) hrest

end Entry

/-! ### Lexemes of entries -/

/-- The lexemes of the type of a field are names and punctuators of one character. -/
theorem FieldType.isWord_of_mem_lexemes
    {t : FieldType} (ht : isName t.typeName) {l : Lexeme} (hl : l ∈ t.lexemes) :
  l.isWord
  := by
  have hinner : ∀ l ∈ t.innerLexemes, l.isWord := by
    intro l hl
    rcases List.mem_cons.mp hl with rfl | hl
    · apply ht
    · cases hrequired : t.isRequired <;> simp [markLexemes, hrequired] at hl
      rw [hl]
      rfl
  rw [lexemes] at hl
  split at hl
  · rcases List.mem_cons.mp hl with rfl | hl
    · rfl
    rcases List.mem_append.mp hl with hl | hl
    · apply hinner l hl
    · rw [List.mem_singleton.mp hl]
      rfl
  · apply hinner l hl

/-- The lexemes of a block are names and punctuators of one character if those of its members
are. -/
theorem isWord_of_mem_block
    {γ : Type} {spell : γ → List Lexeme} {xs : List γ} (h : ∀ x ∈ xs, ∀ l ∈ spell x, l.isWord)
    {l : Lexeme} (hl : l ∈ block spell xs) :
  l.isWord
  := by
  rcases mem_block hl with rfl | rfl | ⟨x, hx, hl⟩
  · rfl
  · rfl
  · apply h x hx l hl

theorem RecordDef.isWord_of_mem_lexemes
    {r : RecordDef} (hr : r.isNamed) {l : Lexeme} (hl : l ∈ r.lexemes) :
  l.isWord
  := by
  simp only [isNamed, Bool.and_eq_true, List.all_eq_true] at hr
  obtain ⟨hname, hfields⟩ := hr
  rcases List.mem_cons.mp hl with rfl | hl
  · apply hname
  apply isWord_of_mem_block _ hl
  intro f hf l hl
  obtain ⟨hfname, htype⟩ := hfields f hf
  rcases List.mem_cons.mp hl with rfl | hl
  · apply hfname
  rcases List.mem_cons.mp hl with rfl | hl
  · rfl
  · apply FieldType.isWord_of_mem_lexemes htype hl

/-- The lexemes of an entry are names and punctuators of one character. -/
theorem Entry.isWord_of_mem_lexemes
    {e : Entry} (he : e.isNamed) {l : Lexeme} (hl : l ∈ e.lexemes) :
  l.isWord
  := by
  cases e with
  | enum e =>
      simp only [isNamed, Bool.and_eq_true, List.all_eq_true] at he
      obtain ⟨hname, hvalues⟩ := he
      rcases List.mem_cons.mp hl with rfl | hl
      · decide
      rcases List.mem_cons.mp hl with rfl | hl
      · apply hname
      apply isWord_of_mem_block _ hl
      intro v hv l hl
      obtain rfl := List.mem_singleton.mp hl
      apply (hvalues v hv).1
  | object r =>
      rcases List.mem_cons.mp hl with rfl | hl
      · decide
      · apply RecordDef.isWord_of_mem_lexemes he hl
  | input r =>
      rcases List.mem_cons.mp hl with rfl | hl
      · decide
      · apply RecordDef.isWord_of_mem_lexemes he hl

end ElmSchema
