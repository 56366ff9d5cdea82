import ElmSchema.Document.Parser
import ElmSchema.Proofs.Document.Name
import Mathlib.Data.List.TakeWhile

/-!
# Names of a document that was read

Whatever text a document is read from, each name in the document is a name of the language:
those of definitions, of fields and enum values, and those at the end of type nodes.

The names come from tokens. The lexer makes a name token only of a name, and a parser gives
away tokens but makes none. So every parser keeps a cursor on which all name tokens hold
names, and a parser that gives a name gives one of theirs. There is a lemma for each parser,
and it follows the definition of the parser step by step.
-/

namespace ElmSchema.Document

variable {α β : Type}

/-! ### Name tokens -/

/-- If a token is a name token, it holds a name. -/
def Token.IsNamed (t : Token) : Prop :=
  ∀ v, t.lexeme = .name v → isName v

/-- All name tokens of a cursor hold names. -/
def Cursor.IsNamed (c : Cursor) : Prop :=
  ∀ t ∈ c.tokens, t.IsNamed

theorem Token.isNamed_of_ne {t : Token} (h : ∀ v, t.lexeme ≠ .name v) :
  t.IsNamed
  := by
  intro v hv
  exact absurd hv (h v)

/-- A token that is made of the result of a reader is named if it is no name token, whatever
the result. -/
theorem isNamed_of_bind_pure
    {x : Except Fault α} {f : α → Token} (hf : ∀ a v, (f a).lexeme ≠ .name v) {t : Token}
    (h : (do return f (← x)) = Except.ok t) :
  t.IsNamed
  := by
  cases x with
  | error fault => simp [bind, Except.bind] at h
  | ok a =>
      obtain rfl : f a = t := by simpa [bind, Except.bind, pure, Except.pure] using h
      apply Token.isNamed_of_ne (hf a)

theorem isNamed_readNumber {start : Nat} {cs : List Char} {t : Token}
    (h : readNumber start cs = .ok t) :
  t.IsNamed
  := by
  apply Token.isNamed_of_ne
  intro v hv
  simp only [readNumber, bind, Except.bind, pure, Except.pure] at h
  split at h
  · simp at h
  · split at h
    · simp at h
    · split at h
      · simp at h
      · split at h
        · simp at h
        · obtain rfl := Except.ok.inj h
          dsimp only at hv
          split at hv <;> simp at hv

/-- A name token is made of a name. -/
theorem isNamed_readName {c : Char} (hc : isNameStart c) (start : Nat) (rest : List Char) :
  (readName start (c :: rest)).IsNamed
  := by
  intro v hv
  have hcontinue : isNameContinue c := isNameContinue_of_isNameStart hc
  obtain rfl : String.ofList (c :: rest.takeWhile isNameContinue) = v := by
    simpa [readName, hcontinue] using hv
  have hrest : (rest.takeWhile isNameContinue).all isNameContinue :=
    List.all_eq_true.mpr fun _ => List.mem_takeWhile_imp
  simp only [isName, String.toList_ofList, hc, hrest, Bool.and_self]

theorem isNamed_readToken
    {start : Nat} {c : Char} {rest : List Char} {t : Token}
    (h : readToken start c rest = .ok t) :
  t.IsNamed
  := by
  rw [readToken] at h
  split at h
  · obtain rfl := Except.ok.inj h
    apply Token.isNamed_of_ne
    simp
  · split_ifs at h with hnumber hname hquote hblock hspread hsingle
    · apply isNamed_readNumber h
    · obtain rfl := Except.ok.inj h
      apply isNamed_readName hname
    · apply isNamed_of_bind_pure _ h
      simp
    · apply isNamed_of_bind_pure _ h
      simp
    · obtain rfl := Except.ok.inj h
      apply Token.isNamed_of_ne
      simp
    · simp [failAt] at h
    · simp [failAt] at h

theorem isNamed_lexFrom :
  ∀ (position skip : Nat) (cs : List Char), (lexFrom position skip cs).IsNamed
  | _, _, [] => by
      intro t ht
      simp [lexFrom] at ht
  | position, skip + 1, _ :: rest => isNamed_lexFrom (position + 1) skip rest
  | position, 0, c :: rest => by
      rw [lexFrom]
      split_ifs with hignored hcomment
      · apply isNamed_lexFrom
      · apply isNamed_lexFrom
      · split
        · intro t ht
          simp at ht
        · rename_i t hread
          intro t' ht'
          rcases List.mem_cons.mp ht' with rfl | ht'
          · apply isNamed_readToken hread
          · apply isNamed_lexFrom _ _ _ t' ht'

/-- All name tokens of a text hold names. -/
theorem isNamed_lex (cs : List Char) :
  (lex cs).IsNamed
  := isNamed_lexFrom 0 0 cs

theorem Cursor.IsNamed.drop {c : Cursor} (hc : c.IsNamed) :
  ({ c with tokens := c.tokens.drop 1 } : Cursor).IsNamed
  := by
  intro t ht
  apply hc t (List.mem_of_mem_drop ht)

theorem Cursor.IsNamed.current {c : Cursor} (hc : c.IsNamed) :
  c.current.IsNamed
  := by
  obtain ⟨tokens, ending⟩ := c
  cases tokens with
  | cons t tokens => apply hc t List.mem_cons_self
  | nil =>
      apply Token.isNamed_of_ne
      cases ending <;> simp [Cursor.current]

/-! ### What parsers keep -/

/-- A parser leaves a named cursor where it started with one, and its result has a property. -/
def Yields (p : Parser α) (P : α → Prop) : Prop :=
  ∀ (calls : Nat) (c : Cursor), c.IsNamed → ∀ a c', p calls c = .ok (a, c') → c'.IsNamed ∧ P a

/-- A parser leaves a named cursor where it started with one. -/
def Keeps (p : Parser α) : Prop :=
  Yields p fun _ => True

namespace Yields

variable {P : α → Prop} {Q : β → Prop}

theorem pure {a : α} (h : P a) :
  Yields (Pure.pure a) P
  := by
  intro calls c hc a' c' hrun
  cases hrun
  exact ⟨hc, h⟩

theorem bind
    {x : Parser α} {f : α → Parser β} (hx : Yields x P) (hf : ∀ a, P a → Yields (f a) Q) :
  Yields (x >>= f) Q
  := by
  intro calls c hc b c'' hrun
  simp only [Bind.bind, ReaderT.bind, StateT.bind, Except.bind] at hrun
  cases hfirst : x calls c with
  | error fault => simp [hfirst] at hrun
  | ok result =>
      obtain ⟨a, c'⟩ := result
      rw [hfirst] at hrun
      obtain ⟨hc', ha⟩ := hx calls c hc a c' hfirst
      exact hf a ha calls c' hc' b c'' hrun

theorem rule {p : Parser α} (h : Yields p P) :
  Yields (Parser.rule p) P
  := by
  intro calls
  apply h

theorem throw (f : Fault) :
  Yields (MonadExcept.throw f) P
  := by
  intro calls c hc a c' hrun
  cases hrun

theorem ite
    {p q : Parser α} {b : Prop} [Decidable b] (hp : Yields p P) (hq : Yields q P) :
  Yields (if b then p else q) P
  := by
  split
  · exact hp
  · exact hq

theorem keeps {p : Parser α} (h : Yields p P) :
  Keeps p
  := by
  intro calls c hc a c' hrun
  exact ⟨(h calls c hc a c' hrun).1, trivial⟩

end Yields

namespace Keeps

theorem pure (a : α) :
  Keeps (Pure.pure a)
  := Yields.pure trivial

theorem bind {x : Parser α} {f : α → Parser β} (hx : Keeps x) (hf : ∀ a, Keeps (f a)) :
  Keeps (x >>= f)
  := Yields.bind hx fun a _ => hf a

theorem rule {p : Parser α} (h : Keeps p) :
  Keeps (Parser.rule p)
  := Yields.rule h

theorem ite {p q : Parser α} {b : Prop} [Decidable b] (hp : Keeps p) (hq : Keeps q) :
  Keeps (if b then p else q)
  := Yields.ite hp hq

end Keeps

/-! ### Tokens -/

section Tokens

variable {P : α → Prop}

theorem yields_current :
  Yields Parser.current Token.IsNamed
  := by
  intro calls c hc t c' hrun
  cases hrun
  exact ⟨hc, hc.current⟩

theorem yields_unexpected (t : Token) :
  Yields (Parser.unexpected t) P
  := Yields.throw _

theorem yields_unexpectedHere :
  Yields Parser.unexpectedHere P
  := .bind yields_current fun t _ => yields_unexpected t

theorem keeps_current :
  Keeps Parser.current
  := yields_current.keeps

theorem keeps_steps :
  Keeps Parser.steps
  := by
  intro calls c hc n c' hrun
  cases hrun
  exact ⟨hc, trivial⟩

theorem keeps_uncover :
  Keeps Parser.uncover
  := by
  intro calls c hc _ c' hrun
  obtain ⟨tokens, ending⟩ := c
  cases tokens with
  | cons t tokens =>
      cases hrun
      exact ⟨hc, trivial⟩
  | nil =>
      cases ending with
      | fault f => cases hrun
      | eof position =>
          cases hrun
          exact ⟨hc, trivial⟩

theorem keeps_requireRoom :
  Keeps Parser.requireRoom
  := by
  have hread : Keeps (MonadReader.read : Parser Nat) := by
    intro calls c hc n c' hrun
    cases hrun
    exact ⟨hc, trivial⟩
  refine .bind hread fun calls => .bind keeps_current fun t => ?_
  split
  · apply Yields.throw
  · apply Keeps.pure

theorem keeps_advance :
  Keeps Parser.advance
  := by
  have hmodify : Keeps (modify fun c => { c with tokens := c.tokens.drop 1 } : Parser Unit) := by
    intro calls c hc _ c' hrun
    cases hrun
    exact ⟨hc.drop, trivial⟩
  exact .bind hmodify fun _ => .bind keeps_requireRoom fun _ => keeps_uncover

theorem keeps_lookahead :
  Keeps Parser.lookahead
  := by
  have hget : Keeps (get : Parser Cursor) := by
    intro calls c hc c₁ c' hrun
    cases hrun
    exact ⟨hc, trivial⟩
  refine .bind hget fun c => ?_
  dsimp only
  split
  · apply Yields.throw
  · apply Keeps.pure

theorem keeps_peek (p : Punctuator) :
  Keeps (Parser.peek p)
  := .bind keeps_current fun _ => .pure _

theorem keeps_expect (p : Punctuator) :
  Keeps (Parser.expect p)
  := .bind keeps_current fun _ => .ite (.bind keeps_advance fun _ => .pure _) (.throw _)

theorem keeps_accept (p : Punctuator) :
  Keeps (Parser.accept p)
  := .bind (keeps_peek p) fun _ => .ite (.bind keeps_advance fun _ => .pure _) (.pure _)

theorem keeps_keyword (word : String) :
  Keeps (Parser.keyword word)
  := .bind keeps_current fun _ => .ite keeps_advance (.throw _)

theorem keeps_acceptKeyword (word : String) :
  Keeps (Parser.acceptKeyword word)
  := .bind keeps_current fun _ => .ite (.bind keeps_advance fun _ => .pure _) (.pure _)

/-- A name that is taken is a name. -/
theorem yields_name :
  Yields Parser.name fun v => isName v
  := by
  apply Yields.rule
  apply Yields.bind yields_current
  intro t ht
  split
  · rename_i v hv
    exact .bind keeps_advance fun _ _ => .pure (ht v hv)
  · apply Yields.throw

theorem keeps_name :
  Keeps Parser.name
  := yields_name.keeps

end Tokens

/-! ### Repetitions -/

section Repetitions

variable {P : α → Prop} {item : Parser α} (h : Yields item P)
include h

theorem yields_itemsUntil (close : Punctuator) :
  ∀ (fuel : Nat), Yields (Parser.itemsUntil close item fuel) fun xs => ∀ x ∈ xs, P x
  | 0 => yields_unexpectedHere
  | fuel + 1 => by
      refine .bind (keeps_accept close) fun _ _ => .ite (.pure (by simp)) ?_
      refine .bind h fun x hx => .bind (yields_itemsUntil close fuel) fun xs hxs => .pure ?_
      exact List.forall_mem_cons.mpr ⟨hx, hxs⟩

theorem yields_someUntil (close : Punctuator) :
  Yields (Parser.someUntil close item) fun xs => ∀ x ∈ xs, P x
  := by
  refine .bind h fun x hx => .bind keeps_steps fun n _ =>
    .bind (yields_itemsUntil h close n) fun xs hxs => .pure ?_
  exact List.forall_mem_cons.mpr ⟨hx, hxs⟩

theorem yields_optionalMany (opening close : Punctuator) :
  Yields (Parser.optionalMany opening item close) fun xs => ∀ x ∈ xs, P x
  := .rule <| .bind (keeps_accept opening) fun _ _ =>
    .ite (yields_someUntil h close) (.pure (by simp))

theorem keeps_any (opening close : Punctuator) :
  Keeps (Parser.any opening item close)
  := .rule <| .bind (keeps_expect opening) fun _ => .bind keeps_steps fun n =>
    (yields_itemsUntil h close n).keeps

theorem keeps_many (opening close : Punctuator) :
  Keeps (Parser.many opening item close)
  := .rule <| .bind (keeps_expect opening) fun _ => (yields_someUntil h close).keeps

theorem keeps_optionalMany (opening close : Punctuator) :
  Keeps (Parser.optionalMany opening item close)
  := (yields_optionalMany h opening close).keeps

theorem keeps_delimited (delimiter : Punctuator) :
  ∀ (fuel : Nat), Keeps (Parser.delimited delimiter item fuel)
  | 0 => yields_unexpectedHere
  | fuel + 1 => .bind h.keeps fun _ => .bind (keeps_accept delimiter) fun _ =>
    .ite (.bind (keeps_delimited delimiter fuel) fun _ => .pure _) (.pure _)

theorem keeps_delimitedMany (delimiter : Punctuator) :
  Keeps (Parser.delimitedMany delimiter item)
  := .rule <| .bind (keeps_accept delimiter) fun _ => .bind keeps_steps fun n =>
    keeps_delimited h delimiter n

end Repetitions

/-! ### Values and directives -/

theorem keeps_variableName :
  Keeps Parser.variableName
  := .rule <| .bind (keeps_expect _) fun _ => .bind keeps_name fun _ => .pure _

theorem keeps_constantVariable :
  Keeps Parser.constantVariable
  := by
  refine .bind (keeps_expect _) fun t => .bind keeps_current fun next => ?_
  split
  · apply Yields.throw
  · apply yields_unexpected

theorem keeps_labelled {part : Parser Unit} (h : Keeps part) :
  Keeps (Parser.labelled part)
  := .rule <| .bind keeps_name fun _ => .bind (keeps_expect _) fun _ => h

theorem keeps_valueWithin (isConst : Bool) :
  ∀ (depth : Nat), Keeps (Parser.valueWithin isConst depth)
  | 0 => Yields.throw _
  | depth + 1 => by
      have ih := keeps_valueWithin isConst depth
      refine .rule <| .bind keeps_current fun t => ?_
      split
      · exact .bind (.rule (keeps_any ih _ _)) fun _ => .pure _
      · exact .bind (.rule (keeps_any (keeps_labelled ih) _ _)) fun _ => .pure _
      · exact .rule (.ite keeps_constantVariable keeps_variableName)
      · apply yields_unexpectedHere
      · apply yields_unexpectedHere
      · apply keeps_advance

theorem keeps_value (isConst : Bool) :
  Keeps (Parser.value isConst)
  := keeps_valueWithin isConst maxCalls

theorem keeps_defaultValue :
  Keeps Parser.defaultValue
  := .bind (keeps_accept _) fun _ => .ite (.rule (keeps_value true)) (.pure _)

theorem keeps_argument (isConst : Bool) :
  Keeps (Parser.argument isConst)
  := .ite (.rule (keeps_labelled (keeps_value true))) (keeps_labelled (keeps_value false))

theorem keeps_arguments (isConst : Bool) :
  Keeps (Parser.arguments isConst)
  := .rule <| .bind (keeps_optionalMany (keeps_argument isConst) _ _) fun _ => .pure _

theorem keeps_directive (isConst : Bool) :
  Keeps (Parser.directive isConst)
  := .rule <| .bind (keeps_expect _) fun _ => .bind keeps_name fun _ =>
    .bind (keeps_arguments isConst) fun _ => .pure _

theorem keeps_directivesWithin (isConst : Bool) :
  ∀ (fuel : Nat), Keeps (Parser.directivesWithin isConst fuel)
  | 0 => yields_unexpectedHere
  | fuel + 1 => .bind (keeps_peek _) fun _ => .ite
    (.bind (keeps_directive isConst) fun _ =>
      .bind (keeps_directivesWithin isConst fuel) fun _ => .pure _)
    (.pure _)

theorem keeps_directives (isConst : Bool) :
  Keeps (Parser.directives isConst)
  := .rule <| .bind keeps_steps fun n => keeps_directivesWithin isConst n

theorem keeps_constDirectives :
  Keeps Parser.constDirectives
  := .rule (keeps_directives true)

/-! ### Type references -/

/-- Whether the name at the end of a type node, if there is one, is a name. -/
def TypeNode.isNamed : TypeNode → Bool
  | .named name => isName name
  | .nonNull inner => inner.isNamed
  | .list _ inner => inner.isNamed
  | .stray _ => true

theorem yields_typeName :
  Yields Parser.typeName fun v => isName v
  := .rule yields_name

theorem keeps_typeName :
  Keeps Parser.typeName
  := yields_typeName.keeps

theorem yields_typeReferenceWithin :
  ∀ (depth : Nat), Yields (Parser.typeReferenceWithin depth) fun node => node.isNamed
  | 0 => Yields.throw _
  | depth + 1 => by
      refine .rule <| .bind keeps_current fun t _ => .bind (keeps_accept _) fun opens _ => ?_
      have hmark : ∀ {node : TypeNode}, node.isNamed → Yields (do
          if ← Parser.accept .bang then return .nonNull node else return node)
          fun node => node.isNamed := by
        intro node hnode
        exact .bind (keeps_accept _) fun _ _ => .ite (.pure hnode) (.pure hnode)
      dsimp only
      split
      · exact .bind (yields_typeReferenceWithin depth) fun inner hinner =>
          .bind (keeps_expect _) fun close _ => .bind (.pure hinner) fun node hnode => hmark hnode
      · exact .bind yields_typeName fun v hv => .bind (.pure hv) fun node hnode => hmark hnode

theorem yields_typeReference :
  Yields Parser.typeReference fun node => node.isNamed
  := yields_typeReferenceWithin maxCalls

/-! ### Operations and fragments -/

theorem keeps_fragmentName :
  Keeps Parser.fragmentName
  := .rule <| .bind keeps_current fun t => .ite (yields_unexpected t)
    (.bind keeps_name fun _ => .pure _)

theorem keeps_spread {selections : Parser Unit} (h : Keeps selections) :
  Keeps (Parser.spread selections)
  := by
  refine .rule <| .bind (keeps_expect _) fun _ => .bind (keeps_acceptKeyword _) fun on =>
    .bind keeps_current fun t => ?_
  have hrest : Keeps (do
      let _ ← Parser.directives false
      selections) := .bind (keeps_directives false) fun _ => h
  split
  · exact .bind keeps_fragmentName fun _ => .bind (keeps_directives false) fun _ => .pure _
  · exact .ite (.bind keeps_typeName fun _ => hrest) hrest

theorem keeps_selectedField {selections : Parser Unit} (h : Keeps selections) :
  Keeps (Parser.selectedField selections)
  := by
  have hrest : Keeps (do
      Parser.arguments false
      let _ ← Parser.directives false
      if ← Parser.peek .braceL then selections) :=
    .bind (keeps_arguments false) fun _ => .bind (keeps_directives false) fun _ =>
      .bind (keeps_peek _) fun _ => .ite h (.pure _)
  exact .rule <| .bind keeps_name fun _ => .bind (keeps_accept _) fun _ =>
    .ite (.bind keeps_name fun _ => hrest) hrest

theorem keeps_selectionSetWithin :
  ∀ (depth : Nat), Keeps (Parser.selectionSetWithin depth)
  | 0 => Yields.throw _
  | depth + 1 => by
      have ih := keeps_selectionSetWithin depth
      have hselection : Keeps (Parser.rule do
          if ← Parser.peek .spread then Parser.spread (Parser.selectionSetWithin depth)
          else Parser.selectedField (Parser.selectionSetWithin depth)) :=
        .rule <| .bind (keeps_peek _) fun _ => .ite (keeps_spread ih) (keeps_selectedField ih)
      exact .rule <| .bind (keeps_many hselection _ _) fun _ => .pure _

theorem keeps_selectionSet :
  Keeps Parser.selectionSet
  := keeps_selectionSetWithin maxCalls

theorem keeps_operationType :
  Keeps Parser.operationType
  := by
  refine .rule <| .bind keeps_current fun t => ?_
  split
  · exact .bind keeps_advance fun _ => .ite (.pure _) (yields_unexpected t)
  · apply Yields.throw

theorem keeps_variableDefinition :
  Keeps Parser.variableDefinition
  := .rule <| .bind keeps_variableName fun _ => .bind (keeps_expect _) fun _ =>
    .bind yields_typeReference.keeps fun _ => .bind keeps_defaultValue fun _ =>
      .bind keeps_constDirectives fun _ => .pure _

theorem keeps_variableDefinitions :
  Keeps Parser.variableDefinitions
  := .rule <| .bind (keeps_optionalMany keeps_variableDefinition _ _) fun _ => .pure _

theorem keeps_typeCondition :
  Keeps Parser.typeCondition
  := .rule <| .bind (keeps_keyword _) fun _ => .bind keeps_typeName fun _ => .pure _

/-! ### Parts of definitions -/

/-- Whether a field has a name, and its type node too. -/
def FieldNode.isNamed (f : FieldNode) : Bool :=
  isName f.name && f.type.isNamed

/-- Whether a member of an enum is a name. -/
def EnumMember.isNamed : EnumMember → Bool
  | .value name => isName name
  | .bareName name => isName name

theorem keeps_description :
  Keeps Parser.description
  := .rule <| .bind keeps_current fun _ => .ite keeps_advance (.pure _)

theorem keeps_implementedInterfaces :
  Keeps Parser.implementedInterfaces
  := .rule <| .bind (keeps_acceptKeyword _) fun _ =>
    .ite (keeps_delimitedMany yields_typeName _) (.pure _)

theorem yields_inputValue :
  Yields Parser.inputValue fun f => f.isNamed
  := by
  refine .rule <| .bind keeps_description fun _ _ => .bind yields_name fun v hv =>
    .bind (keeps_expect _) fun _ _ => .bind yields_typeReference fun node hnode =>
      .bind keeps_defaultValue fun _ _ => .bind keeps_constDirectives fun _ _ => .pure ?_
  simp [FieldNode.isNamed, hv, hnode]

theorem keeps_argumentDefinitions :
  Keeps Parser.argumentDefinitions
  := .rule <| .bind (keeps_optionalMany yields_inputValue _ _) fun _ => .pure _

theorem yields_fieldDefinition :
  Yields Parser.fieldDefinition fun f => f.isNamed
  := by
  refine .rule <| .bind keeps_description fun _ _ => .bind yields_name fun v hv =>
    .bind keeps_argumentDefinitions fun _ _ => .bind (keeps_expect _) fun _ _ =>
      .bind yields_typeReference fun node hnode => .bind keeps_constDirectives fun _ _ => .pure ?_
  simp [FieldNode.isNamed, hv, hnode]

theorem yields_fieldDefinitions :
  Yields Parser.fieldDefinitions fun fields => ∀ f ∈ fields, f.isNamed
  := .rule (yields_optionalMany yields_fieldDefinition _ _)

theorem yields_inputFields :
  Yields Parser.inputFields fun fields => ∀ f ∈ fields, f.isNamed
  := .rule (yields_optionalMany yields_inputValue _ _)

theorem yields_enumValue :
  Yields Parser.enumValue fun member => member.isNamed
  := by
  have hname : Yields Parser.enumValueName fun v => isName v :=
    .rule <| .bind keeps_current fun t _ => .ite (.throw _) yields_name
  exact .rule <| .bind keeps_description fun _ _ => .bind hname fun v hv =>
    .bind keeps_constDirectives fun _ _ => .pure hv

theorem yields_enumValues :
  Yields Parser.enumValues fun members => ∀ m ∈ members, m.isNamed
  := .rule (yields_optionalMany yields_enumValue _ _)

theorem keeps_unionMembers :
  Keeps Parser.unionMembers
  := .rule <| .bind (keeps_accept _) fun _ => .ite (keeps_delimitedMany yields_typeName _) (.pure _)

theorem keeps_rootOperation :
  Keeps Parser.rootOperation
  := .rule <| .bind keeps_operationType fun _ => .bind (keeps_expect _) fun _ =>
    .bind keeps_typeName fun _ => .pure _

theorem keeps_directivePlaces :
  Keeps Parser.directivePlaces
  := by
  have hlocation : Keeps Parser.directiveLocation :=
    .rule <| .bind keeps_current fun t => .bind keeps_name fun _ =>
      .ite (.pure _) (yields_unexpected t)
  exact .rule <| .bind (keeps_delimitedMany hlocation _) fun _ => .pure _

/-! ### Definitions -/

/-- Whether the names in a definition are names. -/
def Definition.isNamed : Definition → Bool
  | .enum name members => isName name && members.all EnumMember.isNamed
  | .object name fields => isName name && fields.all FieldNode.isNamed
  | .input name fields => isName name && fields.all FieldNode.isNamed
  | .unsupported fields => fields.all FieldNode.isNamed

theorem yields_objectDefinition :
  Yields Parser.objectDefinition fun d => d.isNamed
  := by
  refine .rule <| .bind keeps_description fun _ _ => .bind (keeps_keyword _) fun _ _ =>
    .bind yields_name fun v hv => .bind keeps_implementedInterfaces fun _ _ =>
      .bind keeps_constDirectives fun _ _ => .bind yields_fieldDefinitions fun fields hfields =>
        .pure ?_
  simpa [Definition.isNamed, hv] using hfields

theorem yields_inputDefinition :
  Yields Parser.inputDefinition fun d => d.isNamed
  := by
  refine .rule <| .bind keeps_description fun _ _ => .bind (keeps_keyword _) fun _ _ =>
    .bind yields_name fun v hv => .bind keeps_constDirectives fun _ _ =>
      .bind yields_inputFields fun fields hfields => .pure ?_
  simpa [Definition.isNamed, hv] using hfields

theorem yields_enumDefinition :
  Yields Parser.enumDefinition fun d => d.isNamed
  := by
  refine .rule <| .bind keeps_description fun _ _ => .bind (keeps_keyword _) fun _ _ =>
    .bind yields_name fun v hv => .bind keeps_constDirectives fun _ _ =>
      .bind yields_enumValues fun members hmembers => .pure ?_
  simpa [Definition.isNamed, hv] using hmembers

theorem yields_schemaDefinition :
  Yields Parser.schemaDefinition fun d => d.isNamed
  := .rule <| .bind keeps_description fun _ _ => .bind (keeps_keyword _) fun _ _ =>
    .bind keeps_constDirectives fun _ _ => .bind (keeps_many keeps_rootOperation _ _) fun _ _ =>
      .pure rfl

theorem yields_scalarDefinition :
  Yields Parser.scalarDefinition fun d => d.isNamed
  := .rule <| .bind keeps_description fun _ _ => .bind (keeps_keyword _) fun _ _ =>
    .bind keeps_name fun _ _ => .bind keeps_constDirectives fun _ _ => .pure rfl

theorem yields_interfaceDefinition :
  Yields Parser.interfaceDefinition fun d => d.isNamed
  := .rule <| .bind keeps_description fun _ _ => .bind (keeps_keyword _) fun _ _ =>
    .bind keeps_name fun _ _ => .bind keeps_implementedInterfaces fun _ _ =>
      .bind keeps_constDirectives fun _ _ => .bind yields_fieldDefinitions fun _ hfields =>
        .pure (by simpa [Definition.isNamed] using hfields)

theorem yields_unionDefinition :
  Yields Parser.unionDefinition fun d => d.isNamed
  := .rule <| .bind keeps_description fun _ _ => .bind (keeps_keyword _) fun _ _ =>
    .bind keeps_name fun _ _ => .bind keeps_constDirectives fun _ _ =>
      .bind keeps_unionMembers fun _ _ => .pure rfl

theorem yields_directiveDefinition :
  Yields Parser.directiveDefinition fun d => d.isNamed
  := .rule <| .bind keeps_description fun _ _ => .bind (keeps_keyword _) fun _ _ =>
    .bind (keeps_expect _) fun _ _ => .bind keeps_name fun _ _ =>
      .bind keeps_argumentDefinitions fun _ _ => .bind (keeps_acceptKeyword _) fun _ _ =>
        .bind (keeps_keyword _) fun _ _ => .bind keeps_directivePlaces fun _ _ => .pure rfl

theorem yields_definitionOf?
    {word : String} {body : Parser Definition} (h : Parser.definitionOf? word = some body) :
  Yields body fun d => d.isNamed
  := by
  unfold Parser.definitionOf? at h
  split at h
  all_goals cases h
  · apply yields_schemaDefinition
  · apply yields_scalarDefinition
  · apply yields_objectDefinition
  · apply yields_interfaceDefinition
  · apply yields_unionDefinition
  · apply yields_enumDefinition
  · apply yields_inputDefinition
  · apply yields_directiveDefinition

/-! ### Extensions -/

theorem keeps_requireAddition (present : Bool) :
  Keeps (Parser.requireAddition present)
  := .ite (.pure _) yields_unexpectedHere

theorem yields_fieldsExtension :
  Yields Parser.fieldsExtension fun d => d.isNamed
  := .bind keeps_name fun _ _ => .bind keeps_implementedInterfaces fun _ _ =>
    .bind keeps_constDirectives fun _ _ => .bind yields_fieldDefinitions fun _ hfields =>
      .bind (keeps_requireAddition _) fun _ _ =>
        .pure (by simpa [Definition.isNamed] using hfields)

theorem yields_inputExtension :
  Yields Parser.inputExtension fun d => d.isNamed
  := .bind keeps_name fun _ _ => .bind keeps_constDirectives fun _ _ =>
    .bind yields_inputFields fun _ hfields => .bind (keeps_requireAddition _) fun _ _ =>
      .pure (by simpa [Definition.isNamed] using hfields)

theorem yields_extensionOf?
    {word : String} {rest : Parser Definition} (h : Parser.extensionOf? word = some rest) :
  Yields rest fun d => d.isNamed
  := by
  unfold Parser.extensionOf? at h
  split at h
  all_goals cases h
  · exact .bind keeps_constDirectives fun _ _ =>
      .bind (keeps_optionalMany keeps_rootOperation _ _) fun _ _ =>
        .bind (keeps_requireAddition _) fun _ _ => .pure rfl
  · exact .bind keeps_name fun _ _ => .bind keeps_constDirectives fun _ _ =>
      .bind (keeps_requireAddition _) fun _ _ => .pure rfl
  · apply yields_fieldsExtension
  · apply yields_fieldsExtension
  · exact .bind keeps_name fun _ _ => .bind keeps_constDirectives fun _ _ =>
      .bind keeps_unionMembers fun _ _ => .bind (keeps_requireAddition _) fun _ _ => .pure rfl
  · exact .bind keeps_name fun _ _ => .bind keeps_constDirectives fun _ _ =>
      .bind yields_enumValues.keeps fun _ _ =>
        .bind (keeps_requireAddition _) fun _ _ => .pure rfl
  · apply yields_inputExtension

theorem yields_extension :
  Yields Parser.extension fun d => d.isNamed
  := by
  refine .rule <| .bind keeps_lookahead fun next _ => ?_
  split
  · split
    · rename_i rest hrest
      exact .rule <| .bind (keeps_keyword _) fun _ _ => .bind (keeps_keyword _) fun _ _ =>
        yields_extensionOf? hrest
    · apply yields_unexpected
  · apply yields_unexpected

/-! ### Operations and fragments -/

theorem yields_anonymousQuery :
  Yields Parser.anonymousQuery fun d => d.isNamed
  := .rule <| .bind keeps_selectionSet fun _ _ => .pure rfl

theorem yields_operation :
  Yields Parser.operation fun d => d.isNamed
  := by
  have hrest : Yields (do
      Parser.variableDefinitions
      let _ ← Parser.directives false
      Parser.selectionSet
      return Definition.unsupported) fun d => d.isNamed :=
    .bind keeps_variableDefinitions fun _ _ => .bind (keeps_directives false) fun _ _ =>
      .bind keeps_selectionSet fun _ _ => .pure rfl
  refine .rule <| .bind keeps_operationType fun _ _ => .bind keeps_current fun t _ => ?_
  dsimp only
  split
  · exact .bind keeps_name fun _ _ => hrest
  · exact hrest

theorem yields_fragment :
  Yields Parser.fragment fun d => d.isNamed
  := .rule <| .bind (keeps_keyword _) fun _ _ => .bind keeps_fragmentName fun _ _ =>
    .bind keeps_typeCondition fun _ _ => .bind (keeps_directives false) fun _ _ =>
      .bind keeps_selectionSet fun _ _ => .pure rfl

/-! ### Documents -/

theorem yields_otherDefinitionOf?
    {word : String} {body : Parser Definition}
    (h : Parser.otherDefinitionOf? word = some body) :
  Yields body fun d => d.isNamed
  := by
  unfold Parser.otherDefinitionOf? at h
  split at h
  all_goals cases h
  · apply yields_operation
  · apply yields_operation
  · apply yields_operation
  · apply yields_fragment
  · apply yields_extension

theorem yields_definition :
  Yields Parser.definition fun d => d.isNamed
  := by
  apply Yields.rule
  refine .bind keeps_current fun t _ => .ite ?_ ?_
  · exact yields_anonymousQuery
  · refine .ite (.bind keeps_lookahead fun key _ => ?_) (.bind (Keeps.pure t) fun key _ => ?_)
    -- Described or not, the keyword decides.
    all_goals
      dsimp only
      split
      · split
        · rename_i hbody
          apply yields_definitionOf? hbody
        · apply Yields.throw
        · rename_i hbody
          apply yields_otherDefinitionOf? hbody
        · apply yields_unexpected
      · apply yields_unexpected

theorem yields_definitionsWithin :
  ∀ (fuel : Nat), Yields (Parser.definitionsWithin fuel) fun doc => ∀ d ∈ doc, d.isNamed
  | 0 => yields_unexpectedHere
  | fuel + 1 => by
      refine .bind yields_definition fun d hd => .bind keeps_current fun t _ => .ite ?_ ?_
      · exact .pure (List.forall_mem_singleton.mpr hd)
      · refine .bind (yields_definitionsWithin fuel) fun ds hds => .pure ?_
        exact List.forall_mem_cons.mpr ⟨hd, hds⟩

/-- The names in a document that was read from a text are names. -/
theorem isNamed_of_read
    {calls : Nat} {text : String} {doc : Document} (h : read calls text = .ok doc) :
  ∀ d ∈ doc, d.isNamed
  := by
  have hdocument : Yields Parser.document fun doc => ∀ d ∈ doc, d.isNamed :=
    .rule <| .rule <| .bind keeps_uncover fun _ _ => .bind keeps_steps fun n _ =>
      yields_definitionsWithin n
  rw [read, run, StateT.run', ReaderT.run] at h
  cases hrun : Parser.document (calls + 1) (lex text.toList) with
  | error fault => simp [hrun] at h
  | ok result =>
      obtain ⟨doc', c'⟩ := result
      obtain rfl : doc' = doc := by simpa [hrun] using h
      exact (hdocument _ _ (isNamed_lex _) doc' c' hrun).2

end ElmSchema.Document
