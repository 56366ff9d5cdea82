import ElmSchema.Document.Parser
import ElmSchema.Proofs.Document.Lexing

/-!
# What parsers read

A parser reads from one list of lexemes to another: on every cursor that shows the first, it
gives a result with a certain property and leaves a cursor that shows the second. Each parser
has a lemma that says what it reads, and the lemma for a parser made of parts is made of theirs.

Parsers need room for the calls under way. A token can be taken as long as nine further calls
can be made.
-/

namespace ElmSchema.Document

variable {α β : Type}

/-- A parser reads from some lexemes to the rest of them, and its result has a property. -/
def Reads (p : Parser α) (calls : Nat) (lexemes rest : List Lexeme) (P : α → Prop) : Prop :=
  ∀ c : Cursor, c.Shows lexemes → ∃ a c', p calls c = .ok (a, c') ∧ c'.Shows rest ∧ P a

namespace Reads

variable {calls : Nat} {lexemes middle rest : List Lexeme} {P : α → Prop} {Q : β → Prop}

theorem pure {a : α} (h : P a) :
  Reads (Pure.pure a) calls rest rest P
  := by
  intro c hc
  use a, c, rfl, hc

theorem bind
    {x : Parser α} {f : α → Parser β} (hx : Reads x calls lexemes middle P)
    (hf : ∀ a, P a → Reads (f a) calls middle rest Q) :
  Reads (x >>= f) calls lexemes rest Q
  := by
  intro c hc
  obtain ⟨a, c', hrun, hc', ha⟩ := hx c hc
  obtain ⟨b, c'', hrun', hc'', hb⟩ := hf a ha c' hc'
  refine ⟨b, c'', ?_, hc'', hb⟩
  simp only [Bind.bind, ReaderT.bind, StateT.bind, Except.bind, hrun]
  apply hrun'

theorem imp
    {p : Parser α} {P' : α → Prop} (h : Reads p calls lexemes rest P) (hP : ∀ a, P a → P' a) :
  Reads p calls lexemes rest P'
  := by
  intro c hc
  obtain ⟨a, c', hrun, hc', ha⟩ := h c hc
  use a, c', hrun, hc', hP a ha

theorem rule {p : Parser α} (h : Reads p (calls + 1) lexemes rest P) :
  Reads (Parser.rule p) calls lexemes rest P
  := h

/-! ### Tokens -/

/-- The lexeme under a cursor that shows lexemes. -/
theorem lexeme_current {c : Cursor} (hc : c.Shows rest) :
  c.current.lexeme = rest.headD .eof
  := by
  obtain ⟨tokens, ending⟩ := c
  obtain ⟨htokens, position, hending⟩ := hc
  obtain rfl : ending = .eof position := hending
  obtain rfl := htokens
  cases tokens with
  | nil => rfl
  | cons t tokens => rfl

theorem current :
  Reads Parser.current calls rest rest fun t => t.lexeme = rest.headD .eof
  := by
  intro c hc
  use c.current, c, rfl, hc, lexeme_current hc

theorem steps :
  Reads Parser.steps calls rest rest fun n => n = rest.length + 1
  := by
  intro c hc
  refine ⟨c.tokens.length + 1, c, rfl, hc, ?_⟩
  have hlength := congrArg List.length hc.1
  simpa using hlength

/-- Taking a token takes at most nine further calls. -/
theorem length_calls_le (l : Lexeme) :
  l.calls.length ≤ 9
  := by
  have hnumber : ∀ spelling, (numberCalls spelling).length = 2 := by
    intro spelling
    unfold numberCalls
    split <;> rfl
  cases l <;> simp [Lexeme.calls, hnumber]

theorem requireRoom (hcalls : calls + 9 ≤ maxCalls) :
  Reads Parser.requireRoom calls rest rest fun _ => True
  := by
  have hread : Reads MonadReader.read calls rest rest fun n => calls = n := by
    intro c hc
    use calls, c, rfl, hc
  apply bind hread
  rintro _ rfl
  apply bind current
  intro t _
  have hroom : t.lexeme.calls[maxCalls - calls]? = none := by
    have := length_calls_le t.lexeme
    rw [List.getElem?_eq_none_iff]
    omega
  rw [hroom]
  apply pure trivial

theorem uncover :
  Reads Parser.uncover calls rest rest fun _ => True
  := by
  intro c hc
  obtain ⟨tokens, ending⟩ := c
  obtain ⟨htokens, position, hending⟩ := hc
  obtain rfl : ending = .eof position := hending
  refine ⟨(), ⟨tokens, .eof position⟩, ?_, ⟨htokens, position, rfl⟩, trivial⟩
  cases tokens with
  | nil => rfl
  | cons t tokens => rfl

/-- A token is taken. -/
theorem advance {l : Lexeme} (hcalls : calls + 9 ≤ maxCalls) :
  Reads Parser.advance calls (l :: rest) rest fun _ => True
  := by
  have hmodify : Reads (modify fun c => { c with tokens := c.tokens.drop 1 }) calls
      (l :: rest) rest fun _ => True := by
    intro c hc
    refine ⟨(), { c with tokens := c.tokens.drop 1 }, rfl, ?_, trivial⟩
    constructor
    · rw [List.map_drop, hc.1]
      rfl
    · apply hc.2
  apply bind hmodify
  intro _ _
  apply bind (requireRoom hcalls)
  intro _ _
  apply uncover

/-- A punctuator that has to come is taken. -/
theorem expect {p : Punctuator} (hcalls : calls + 9 ≤ maxCalls) :
  Reads (Parser.expect p) calls (.punct p :: rest) rest fun _ => True
  := by
  apply bind current
  intro t ht
  obtain ht : t.lexeme = .punct p := ht
  simp only [ht, beq_self_eq_true, if_true]
  apply bind (advance hcalls)
  intro _ _
  apply pure trivial

theorem peek {p : Punctuator} :
  Reads (Parser.peek p) calls rest rest fun b => b = (rest.head? == some (.punct p))
  := by
  apply bind current
  intro t ht
  apply pure
  rw [ht]
  cases rest with
  | nil => rfl
  | cons l rest => simp

/-- A punctuator that may come is taken. -/
theorem accept {p : Punctuator} (hcalls : calls + 9 ≤ maxCalls) :
  Reads (Parser.accept p) calls (.punct p :: rest) rest fun b => b = true
  := by
  apply bind peek
  rintro _ rfl
  simp only [List.head?_cons, beq_self_eq_true, if_true]
  apply bind (advance hcalls)
  intro _ _
  apply pure
  rfl

/-- A punctuator that may come does not, and nothing is taken. -/
theorem accept_none {p : Punctuator} (h : rest.head? ≠ some (.punct p)) :
  Reads (Parser.accept p) calls rest rest fun b => b = false
  := by
  apply bind peek
  rintro _ rfl
  rw [beq_eq_false_iff_ne.mpr h, if_neg Bool.false_ne_true]
  apply pure
  rfl

/-- A name is taken. -/
theorem name {v : String} (hcalls : calls + 10 ≤ maxCalls) :
  Reads Parser.name calls (.name v :: rest) rest fun w => w = v
  := by
  apply rule
  apply bind current
  intro t ht
  obtain ht : t.lexeme = .name v := ht
  simp only [ht]
  apply bind (advance (by omega))
  intro _ _
  apply pure
  rfl

/-- A keyword is taken. -/
theorem keyword {word : String} (hcalls : calls + 9 ≤ maxCalls) :
  Reads (Parser.keyword word) calls (.name word :: rest) rest fun _ => True
  := by
  apply bind current
  intro t ht
  obtain ht : t.lexeme = .name word := ht
  simp only [ht, beq_self_eq_true, if_true]
  apply advance hcalls

/-- A keyword that may come does not, and nothing is taken. -/
theorem acceptKeyword_none {word : String} (h : rest.head? ≠ some (.name word)) :
  Reads (Parser.acceptKeyword word) calls rest rest fun b => b = false
  := by
  have hne : rest.headD .eof ≠ .name word := by
    cases rest with
    | nil => simp
    | cons l rest => simpa using h
  apply bind current
  intro t ht
  rw [ht, beq_eq_false_iff_ne.mpr hne, if_neg Bool.false_ne_true]
  apply pure
  rfl

/-! ### Parts that are left out -/

theorem description_none {v : String} :
  Reads Parser.description calls (.name v :: rest) (.name v :: rest) fun _ => True
  := by
  apply rule
  apply bind current
  intro t ht
  obtain ht : t.lexeme = .name v := ht
  simp only [ht, Lexeme.isString, Bool.false_eq_true, if_false]
  apply pure trivial

theorem constDirectives_none (h : rest.head? ≠ some (.punct .at)) :
  Reads Parser.constDirectives calls rest rest fun _ => True
  := by
  apply rule
  apply rule
  apply bind steps
  rintro _ rfl
  apply bind peek
  rintro _ rfl
  rw [beq_eq_false_iff_ne.mpr h, if_neg Bool.false_ne_true]
  apply pure trivial

theorem defaultValue_none (h : rest.head? ≠ some (.punct .equals)) :
  Reads Parser.defaultValue calls rest rest fun _ => True
  := by
  apply bind (accept_none h)
  rintro _ rfl
  apply pure trivial

theorem optionalMany_none
    {item : Parser α} {opening close : Punctuator} (h : rest.head? ≠ some (.punct opening)) :
  Reads (Parser.optionalMany opening item close) calls rest rest fun xs => xs = []
  := by
  apply rule
  apply bind (accept_none h)
  rintro _ rfl
  apply pure
  rfl

theorem argumentDefinitions_none (h : rest.head? ≠ some (.punct .parenL)) :
  Reads Parser.argumentDefinitions calls rest rest fun _ => True
  := by
  apply rule
  apply bind (optionalMany_none h)
  intro _ _
  apply pure trivial

theorem implementedInterfaces_none (h : rest.head? ≠ some (.name "implements")) :
  Reads Parser.implementedInterfaces calls rest rest fun _ => True
  := by
  apply rule
  apply bind (acceptKeyword_none h)
  rintro _ rfl
  apply pure trivial

end Reads

/-- What a parser gives for the tokens of a text is the result for the text. -/
theorem run_eq_ok
    {p : Parser α} {calls : Nat} {text : String} {a : α} {c : Cursor}
    (h : p (calls + 1) (lex text.toList) = .ok (a, c)) :
  run calls p text = .ok a
  := by
  have hrun : (ReaderT.run p (calls + 1)).run' (lex text.toList) = .ok a := by
    rw [StateT.run', ReaderT.run, h]
    rfl
  rw [run, hrun]

/-! ### Blocks -/

/-- What may follow a member of a block or a definition: a name, a closing brace, or the end. -/
inductive IsBoundary : List Lexeme → Prop where
  | ending : IsBoundary []
  | name (v : String) (rest : List Lexeme) : IsBoundary (.name v :: rest)
  | close (rest : List Lexeme) : IsBoundary (.punct .braceR :: rest)

/-- Of all punctuators only the closing brace may follow. -/
theorem IsBoundary.head?_ne
    {rest : List Lexeme} (h : IsBoundary rest) {p : Punctuator} (hp : p ≠ .braceR) :
  rest.head? ≠ some (.punct p)
  := by
  cases h with
  | ending => simp
  | name v rest => simp
  | close rest => simpa using hp.symm

/-- A parser reads a member of a block, whatever follows it. -/
structure ReadsMember
    (p : Parser α) (calls : Nat) (lexemes : List Lexeme) (P : α → Prop) : Prop where
  starts : ∃ v more, lexemes = .name v :: more
  reads : ∀ rest, IsBoundary rest → Reads p calls (lexemes ++ rest) rest P

/-- Members in braces, or nothing if there are none. -/
def block {γ : Type} (spell : γ → List Lexeme) : List γ → List Lexeme
  | [] => []
  | x :: xs => .punct .braceL :: (spell x ++ (xs.flatMap spell ++ [.punct .braceR]))

section Block

variable {γ : Type} {calls : Nat} {item : Parser α} {spell : γ → List Lexeme} {R : γ → α → Prop}

theorem mem_block {xs : List γ} {l : Lexeme} (h : l ∈ block spell xs) :
  l = .punct .braceL ∨ l = .punct .braceR ∨ ∃ x ∈ xs, l ∈ spell x
  := by
  cases xs with
  | nil => simp [block] at h
  | cons x xs =>
      simp only [block, List.mem_cons, List.mem_append, List.mem_flatMap, List.not_mem_nil,
        or_false] at h
      rcases h with h | h | ⟨y, hy, h⟩ | h
      · left
        apply h
      · right
        right
        use x, List.mem_cons_self, h
      · right
        right
        use y, List.mem_cons_of_mem x hy, h
      · right
        left
        apply h

/-- What comes first where a block may stand is its brace, or what follows it. -/
theorem head?_block_ne
    {l : Lexeme} (hl : l ≠ .punct .braceL) {rest : List Lexeme} (hrest : rest.head? ≠ some l)
    (xs : List γ) :
  (block spell xs ++ rest).head? ≠ some l
  := by
  cases xs with
  | nil => apply hrest
  | cons x xs => simpa [block] using hl.symm

/-- What follows a member of a block is a member or the closing brace. -/
theorem isBoundary_members
    {xs : List γ} (h : ∀ x ∈ xs, ReadsMember item calls (spell x) (R x)) (rest : List Lexeme) :
  IsBoundary (xs.flatMap spell ++ .punct .braceR :: rest)
  := by
  cases xs with
  | nil => apply IsBoundary.close
  | cons x xs =>
      obtain ⟨v, more, hx⟩ := (h x List.mem_cons_self).starts
      rw [List.flatMap_cons, hx]
      apply IsBoundary.name

/-- Members are read one after the other up to the closing brace. -/
theorem reads_itemsUntil (hcalls : calls + 9 ≤ maxCalls) (rest : List Lexeme) :
  ∀ {xs : List γ} {fuel : Nat}, xs.length < fuel →
    (∀ x ∈ xs, ReadsMember item calls (spell x) (R x)) →
    Reads (Parser.itemsUntil .braceR item fuel) calls (xs.flatMap spell ++ .punct .braceR :: rest)
      rest fun as => List.Forall₂ R xs as
  | [], fuel + 1, _, _ => by
      apply Reads.bind (Reads.accept hcalls)
      rintro _ rfl
      apply Reads.pure
      apply List.Forall₂.nil
  | x :: xs, fuel + 1, hfuel, h => by
      have hxs : ∀ y ∈ xs, ReadsMember item calls (spell y) (R y) := fun y hy =>
        h y (List.mem_cons_of_mem x hy)
      have hx := h x List.mem_cons_self
      obtain ⟨v, more, hstarts⟩ := hx.starts
      have hopen : ((x :: xs).flatMap spell ++ .punct .braceR :: rest).head?
          ≠ some (.punct .braceR) := by
        simp [hstarts]
      apply Reads.bind (Reads.accept_none hopen)
      rintro _ rfl
      rw [List.flatMap_cons, List.append_assoc]
      apply Reads.bind (hx.reads _ (isBoundary_members hxs rest))
      intro a ha
      apply Reads.bind (reads_itemsUntil hcalls rest (Nat.lt_of_succ_lt_succ hfuel) hxs)
      intro as has
      apply Reads.pure
      apply List.Forall₂.cons ha has

/-- There are at least as many lexemes as members. -/
theorem length_le_members {xs : List γ} (h : ∀ x ∈ xs, ReadsMember item calls (spell x) (R x)) :
  xs.length ≤ (xs.flatMap spell).length
  := by
  induction xs with
  | nil => apply Nat.zero_le
  | cons x xs ih =>
      obtain ⟨v, more, hx⟩ := (h x List.mem_cons_self).starts
      have := ih fun y hy => h y (List.mem_cons_of_mem x hy)
      rw [List.flatMap_cons, hx, List.length_cons, List.length_append, List.length_cons]
      omega

/-- A block is read: its members, or nothing if it has none. -/
theorem reads_block
    {xs : List γ} {rest : List Lexeme} (hcalls : calls + 10 ≤ maxCalls)
    (h : ∀ x ∈ xs, ReadsMember item (calls + 1) (spell x) (R x)) (hrest : IsBoundary rest) :
  Reads (Parser.optionalMany .braceL item .braceR) calls (block spell xs ++ rest) rest
    fun as => List.Forall₂ R xs as
  := by
  cases xs with
  | nil =>
      have hopen : rest.head? ≠ some (.punct .braceL) := hrest.head?_ne (by decide)
      apply (Reads.optionalMany_none hopen).imp
      rintro _ rfl
      apply List.Forall₂.nil
  | cons x xs =>
      have hxs : ∀ y ∈ xs, ReadsMember item (calls + 1) (spell y) (R y) := fun y hy =>
        h y (List.mem_cons_of_mem x hy)
      have hblock : block spell (x :: xs) ++ rest
          = .punct .braceL :: (spell x ++ (xs.flatMap spell ++ .punct .braceR :: rest)) := by
        simp [block]
      rw [hblock]
      apply Reads.rule
      apply Reads.bind (Reads.accept (by omega))
      rintro _ rfl
      rw [if_pos rfl]
      apply Reads.bind ((h x List.mem_cons_self).reads _ (isBoundary_members hxs rest))
      intro a ha
      apply Reads.bind Reads.steps
      rintro _ rfl
      have hfuel : xs.length < (xs.flatMap spell ++ .punct .braceR :: rest).length + 1 := by
        have := length_le_members hxs
        rw [List.length_append]
        omega
      apply Reads.bind (reads_itemsUntil (by omega) rest hfuel hxs)
      intro as has
      apply Reads.pure
      apply List.Forall₂.cons ha has

end Block

end ElmSchema.Document
