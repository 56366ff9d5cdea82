import ElmSchema.Document.Lexer
import ElmSchema.Proofs.Document.Name
import ElmSchema.Proofs.Name.Letters
import Mathlib.Data.List.Chain

/-!
# Tokens of a printed text

A text is printed as pieces: a name or a punctuator, and the gap after it. Gaps are made of
spaces, tabs, line terminators and commas. They may be empty, except between two names. The
tokens of such a text are its names and punctuators, and then the text ends.
-/

namespace ElmSchema.Document

/-! ### Pieces -/

/-- The characters that gaps are made of. -/
def gapCharacters : List Char :=
  [' ', '\t', '\n', '\r', ',']

/-- Whether a text is a gap, possibly empty. -/
def isGap (cs : List Char) : Bool :=
  cs.all fun c => gapCharacters.contains c

namespace Lexeme

/-- Whether a lexeme is a name. -/
def isName : Lexeme → Bool
  | .name _ => true
  | _ => false

/-- Whether a lexeme is a name or a punctuator of one character. -/
def isWord : Lexeme → Bool
  | .name v => Document.isName v
  | .punct p => p != .spread
  | _ => false

/-- The spelling of a name or punctuator. -/
def spelling : Lexeme → List Char
  | .name v => v.toList
  | .punct p => p.text.toList
  | _ => []

end Lexeme

/-- A lexeme, and the gap after it. -/
structure Piece where
  lexeme : Lexeme
  gap : List Char
deriving DecidableEq, Repr

/-- The text of a piece. -/
def Piece.text (p : Piece) : List Char :=
  p.lexeme.spelling ++ p.gap

/-- Gaps stand after all pieces, and no gap between two names is empty. -/
structure IsSpaced (pieces : List Piece) : Prop where
  gaps : ∀ p ∈ pieces, isGap p.gap
  names : pieces.IsChain fun p q => p.lexeme.isName → q.lexeme.isName → p.gap ≠ []

/-! ### Characters -/

theorem mem_gapCharacters {gap : List Char} (h : isGap gap) {c : Char} (hc : c ∈ gap) :
  c ∈ gapCharacters
  := by
  simpa using List.all_eq_true.mp h c hc

theorem isIgnored_of_mem_gap {gap : List Char} (h : isGap gap) {c : Char} (hc : c ∈ gap) :
  isIgnored c
  := by
  have hall : gapCharacters.all isIgnored := by decide
  apply List.all_eq_true.mp hall c (mem_gapCharacters h hc)

theorem not_isNameContinue_of_mem_gap
    {gap : List Char} (h : isGap gap) {c : Char} (hc : c ∈ gap) :
  isNameContinue c = false
  := by
  have hall : gapCharacters.all fun c => !isNameContinue c := by decide
  simpa using List.all_eq_true.mp hall c (mem_gapCharacters h hc)

theorem ne_of_isNameStart
    {c other : Char} (h : isNameStart c) (hother : isNameStart other = false) :
  c ≠ other
  := by
  rintro rfl
  simp [h] at hother

theorem not_isIgnored_of_isNameStart {c : Char} (h : isNameStart c) :
  isIgnored c = false
  := by
  have hne : ∀ other, isNameStart other = false → c ≠ other := fun _ => ne_of_isNameStart h
  simp [isIgnored, isNewline, hne ' ' (by decide), hne '\t' (by decide), hne ',' (by decide),
    hne '\ufeff' (by decide), hne '\n' (by decide), hne '\r' (by decide)]

theorem ofChar?_of_isNameStart {c : Char} (h : isNameStart c) :
  Punctuator.ofChar? c = none
  := by
  unfold Punctuator.ofChar?
  split
  case h_14 => rfl
  all_goals exact absurd h (by decide)

theorem not_isDigit_of_isNameStart {c : Char} (h : isNameStart c) :
  c.isDigit = false
  := by
  rcases Bool.or_eq_true_iff.mp h with halpha | hunderscore
  · rcases Bool.or_eq_true_iff.mp halpha with hupper | hlower
    · exact (Name.not_of_isUpper hupper).2
    · exact (Name.not_of_isLower hlower).2
  · obtain rfl := eq_of_beq hunderscore
    rfl

/-! ### Lexing -/

theorem lexFrom_gap :
  ∀ {gap : List Char}, (∀ c ∈ gap, isIgnored c) → ∀ (position : Nat) (rest : List Char),
    lexFrom position 0 (gap ++ rest) = lexFrom (position + gap.length) 0 rest
  | [], _, position, rest => rfl
  | c :: gap, h, position, rest => by
      have ih := lexFrom_gap (fun d hd => h d (List.mem_cons_of_mem c hd)) (position + 1) rest
      rw [List.cons_append, lexFrom, if_pos (h c List.mem_cons_self), ih, List.length_cons]
      congr 1
      omega

theorem lexFrom_skip :
  ∀ (cs : List Char) (position : Nat) (rest : List Char),
    lexFrom position cs.length (cs ++ rest) = lexFrom (position + cs.length) 0 rest
  | [], position, rest => rfl
  | c :: cs, position, rest => by
      have ih := lexFrom_skip cs (position + 1) rest
      rw [List.length_cons, List.cons_append, lexFrom, ih]
      congr 1
      omega

/-- The cursor at a token before other tokens. -/
def Cursor.cons (t : Token) (c : Cursor) : Cursor :=
  ⟨t :: c.tokens, c.ending⟩

/-- A punctuator of one character is the punctuator of this character. -/
theorem Punctuator.exists_text_eq :
  ∀ {p : Punctuator}, p ≠ .spread → ∃ c, p.text.toList = [c] ∧ ofChar? c = some p ∧
    isIgnored c = false ∧ isNameContinue c = false ∧ c ≠ '#'
  | .spread, hp => absurd rfl hp
  | .bang, _ => ⟨'!', by decide⟩
  | .dollar, _ => ⟨'$', by decide⟩
  | .amp, _ => ⟨'&', by decide⟩
  | .parenL, _ => ⟨'(', by decide⟩
  | .parenR, _ => ⟨')', by decide⟩
  | .colon, _ => ⟨':', by decide⟩
  | .equals, _ => ⟨'=', by decide⟩
  | .at, _ => ⟨'@', by decide⟩
  | .bracketL, _ => ⟨'[', by decide⟩
  | .bracketR, _ => ⟨']', by decide⟩
  | .braceL, _ => ⟨'{', by decide⟩
  | .pipe, _ => ⟨'|', by decide⟩
  | .braceR, _ => ⟨'}', by decide⟩

theorem lexFrom_punct
    {p : Punctuator} (hp : p ≠ .spread) (position : Nat) (rest : List Char) :
  ∃ t : Token, t.lexeme = .punct p ∧
    lexFrom position 0 (p.text.toList ++ rest)
      = (lexFrom (position + p.text.toList.length) 0 rest).cons t
  := by
  obtain ⟨c, htext, hofChar, hignored, -, hcomment⟩ := Punctuator.exists_text_eq hp
  use ⟨.punct p, position, position + 1⟩, rfl
  simp [htext, lexFrom, hignored, hcomment, readToken, hofChar, Cursor.cons]

theorem lexFrom_name
    {v : String} (hv : isName v) {rest : List Char}
    (hrest : ∀ c ∈ rest.head?, isNameContinue c = false) (position : Nat) :
  ∃ t : Token, t.lexeme = .name v ∧
    lexFrom position 0 (v.toList ++ rest)
      = (lexFrom (position + v.toList.length) 0 rest).cons t
  := by
  obtain ⟨c, cs, hcs⟩ := List.exists_cons_of_ne_nil (toList_ne_nil_of_isName hv)
  have hstart : isNameStart c := by
    simp only [isName, hcs, Bool.and_eq_true] at hv
    apply hv.1
  have htake : (c :: (cs ++ rest)).takeWhile isNameContinue = c :: cs := by
    rw [← List.cons_append, ← hcs, List.takeWhile_append_of_pos fun _ => isNameContinue_of_mem hv]
    cases rest with
    | nil => simp
    | cons d rest => simp [hrest d rfl]
  have hname : String.ofList (c :: cs) = v := by
    rw [← hcs, String.ofList_toList]
  have hread : readToken position c (cs ++ rest)
      = .ok ⟨.name v, position, position + (cs.length + 1)⟩ := by
    have hminus : c ≠ '-' := ne_of_isNameStart hstart (by decide)
    simp [readToken, ofChar?_of_isNameStart hstart, not_isDigit_of_isNameStart hstart, hstart,
      hminus, readName, htake, hname]
  have hcomment : c ≠ '#' := ne_of_isNameStart hstart (by decide)
  have hskip : lexFrom (position + 1) cs.length (cs ++ rest)
      = lexFrom (position + (cs.length + 1)) 0 rest := by
    have hposition : position + (cs.length + 1) = position + 1 + cs.length := by omega
    rw [hposition, lexFrom_skip]
  use ⟨.name v, position, position + (cs.length + 1)⟩, rfl
  rw [hcs, List.cons_append, lexFrom, not_isIgnored_of_isNameStart hstart, hread]
  simp [hcomment, hskip, Cursor.cons]

/-- A name or punctuator is one token, provided that a name does not go on after it. -/
theorem lexFrom_word
    {l : Lexeme} (hword : l.isWord) {rest : List Char}
    (hrest : l.isName → ∀ c ∈ rest.head?, isNameContinue c = false) (position : Nat) :
  ∃ t : Token, t.lexeme = l ∧
    lexFrom position 0 (l.spelling ++ rest)
      = (lexFrom (position + l.spelling.length) 0 rest).cons t
  := by
  cases l with
  | punct p => apply lexFrom_punct (by simpa [Lexeme.isWord] using hword)
  | name v => apply lexFrom_name hword (hrest rfl)
  | _ => simp [Lexeme.isWord] at hword

/-- A punctuator does not start as a name goes on. -/
theorem exists_head?_spelling {l : Lexeme} (hword : l.isWord) (hl : l.isName = false) :
  ∃ c, l.spelling = [c] ∧ isNameContinue c = false
  := by
  cases l with
  | punct p =>
      have hp : p ≠ .spread := by simpa [Lexeme.isWord] using hword
      obtain ⟨c, htext, -, -, hcontinue, -⟩ := Punctuator.exists_text_eq hp
      use c, htext
  | name v => simp [Lexeme.isName] at hl
  | _ => simp [Lexeme.isWord] at hword

/-- What follows a piece does not go on with a name. -/
theorem not_isNameContinue_after
    {p : Piece} {pieces : List Piece} (hspaced : IsSpaced (p :: pieces)) (hp : p.lexeme.isName)
    (hwords : ∀ q ∈ pieces, q.lexeme.isWord) :
  ∀ c ∈ (p.gap ++ pieces.flatMap Piece.text).head?, isNameContinue c = false
  := by
  intro c hc
  cases hgap : p.gap with
  | cons d gap =>
      obtain rfl : d = c := by simpa [hgap] using hc
      apply not_isNameContinue_of_mem_gap (hspaced.gaps p List.mem_cons_self)
      rw [hgap]
      apply List.mem_cons_self
  | nil =>
      cases pieces with
      | nil => simp [hgap] at hc
      | cons q pieces =>
          have hq : q.lexeme.isName = false := by
            have := (List.isChain_cons_cons.mp hspaced.names).1 hp
            simpa [hgap] using this
          obtain ⟨d, hspelling, hd⟩ := exists_head?_spelling (hwords q List.mem_cons_self) hq
          obtain rfl : d = c := by simpa [hgap, Piece.text, hspelling] using hc
          apply hd

/-- The tokens of printed pieces are their lexemes, and then the text ends. -/
theorem exists_lexFrom_pieces :
  ∀ {pieces : List Piece}, (∀ p ∈ pieces, p.lexeme.isWord) → IsSpaced pieces →
    ∀ (position : Nat), ∃ tokens stop,
      lexFrom position 0 (pieces.flatMap Piece.text) = ⟨tokens, .eof stop⟩ ∧
        tokens.map Token.lexeme = pieces.map Piece.lexeme
  | [], _, _, position => ⟨[], position, rfl, rfl⟩
  | p :: pieces, hwords, hspaced, position => by
      have hwords' : ∀ q ∈ pieces, q.lexeme.isWord := fun q hq =>
        hwords q (List.mem_cons_of_mem p hq)
      have hspaced' : IsSpaced pieces :=
        ⟨fun q hq => hspaced.gaps q (List.mem_cons_of_mem p hq), hspaced.names.tail⟩
      obtain ⟨t, ht, hlex⟩ : ∃ t : Token, t.lexeme = p.lexeme ∧
          lexFrom position 0 (p.lexeme.spelling ++ (p.gap ++ pieces.flatMap Piece.text))
            = (lexFrom (position + p.lexeme.spelling.length) 0
                (p.gap ++ pieces.flatMap Piece.text)).cons t := by
        apply lexFrom_word (hwords p List.mem_cons_self)
        intro hp
        apply not_isNameContinue_after hspaced hp hwords'
      have hgap : ∀ c ∈ p.gap, isIgnored c := fun _ =>
        isIgnored_of_mem_gap (hspaced.gaps p List.mem_cons_self)
      obtain ⟨tokens, stop, hrest, hmap⟩ := exists_lexFrom_pieces hwords' hspaced'
        (position + p.lexeme.spelling.length + p.gap.length)
      use t :: tokens, stop
      constructor
      · rw [List.flatMap_cons, Piece.text, List.append_assoc, hlex, lexFrom_gap hgap, hrest]
        rfl
      · rw [List.map_cons, List.map_cons, ht, hmap]

/-- The text of pieces after a gap. -/
def printPieces (lead : List Char) (pieces : List Piece) : String :=
  String.ofList (lead ++ pieces.flatMap Piece.text)

/-- A cursor shows lexemes: its tokens are these, and then the text ends. -/
def Cursor.Shows (c : Cursor) (lexemes : List Lexeme) : Prop :=
  c.tokens.map Token.lexeme = lexemes ∧ ∃ position, c.ending = .eof position

/-- The tokens of a printed text show the lexemes of its pieces. -/
theorem shows_lex_printPieces
    {lead : List Char} {pieces : List Piece} (hlead : isGap lead)
    (hwords : ∀ p ∈ pieces, p.lexeme.isWord) (hspaced : IsSpaced pieces) :
  (lex (printPieces lead pieces).toList).Shows (pieces.map Piece.lexeme)
  := by
  obtain ⟨tokens, stop, hlex, hmap⟩ := exists_lexFrom_pieces hwords hspaced (0 + lead.length)
  rw [printPieces, String.toList_ofList, lex, lexFrom_gap fun _ => isIgnored_of_mem_gap hlead, hlex]
  use hmap, stop

end ElmSchema.Document
