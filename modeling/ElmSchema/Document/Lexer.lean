import ElmSchema.Document.Literal

/-!
# Lexing

A text is cut into tokens from left to right. Spaces, tabs, commas, byte order marks, line
breaks and comments separate tokens. The tokens end with the end of the text or with a
fault: what comes after a fault is never looked at.
-/

namespace ElmSchema.Document

/-- How a sequence of tokens ends: at an offset, or with a fault. -/
inductive Ending where
  | eof (position : Nat)
  | fault (f : Fault)
deriving DecidableEq, Repr

/-- The tokens that are still to come. -/
structure Cursor where
  tokens : List Token
  ending : Ending
deriving DecidableEq, Repr

/-- Whether a character separates tokens and means nothing else. -/
def isIgnored (c : Char) : Bool :=
  c == ' ' || c == '\t' || c == ',' || c == '\ufeff' || isNewline c

/-- Read a name. -/
def readName (start : Nat) (cs : List Char) : Token :=
  let name := cs.takeWhile isNameContinue
  ⟨.name (String.ofList name), start, start + name.length⟩

/-- Read the token that starts with the character `c` at `start` and goes on with `rest`. -/
def readToken (start : Nat) (c : Char) (rest : List Char) : Except Fault Token :=
  match Punctuator.ofChar? c with
  | some p => .ok ⟨.punct p, start, start + 1⟩
  | none =>
    if c.isDigit || c == '-' then readNumber start (c :: rest)
    else if isNameStart c then .ok (readName start (c :: rest))
    else if c == '"' then
      if rest.take 2 == ['"', '"'] then readBlockString start (c :: rest)
      else readString start (c :: rest)
    else if c == '.' && rest.take 2 == ['.', '.'] then .ok ⟨.punct .spread, start, start + 3⟩
    else if c == '\'' then failAt start .singleQuote
    else failAt start (.unexpectedCharacter c)

/-- The tokens of a text from `position` on, of which the first `skip` characters have been
read already. -/
def lexFrom (position : Nat) : Nat → List Char → Cursor
  | _, [] => ⟨[], .eof position⟩
  | skip + 1, _ :: rest => lexFrom (position + 1) skip rest
  | 0, c :: rest =>
    if isIgnored c then lexFrom (position + 1) 0 rest
    else if c == '#' then
      lexFrom (position + 1) (rest.takeWhile fun c => !isNewline c).length rest
    else
      match readToken position c rest with
      | .error f => ⟨[], .fault f⟩
      | .ok t =>
        let next := lexFrom (position + 1) (t.stop - position - 1) rest
        ⟨t :: next.tokens, next.ending⟩

/-- The tokens of a text. -/
def lex (cs : List Char) : Cursor :=
  lexFrom 0 0 cs

end ElmSchema.Document
