import ElmSchema.Document.Lexer

/-!
# Parsers

A parser takes tokens from a cursor or finds a fault. The cursor is always one token
ahead: taking a token uncovers the next one, and where that one cannot be read, its fault
comes before any complaint about the grammar.

A parser is also told how many calls are under way. Each rule of the grammar adds one, and
who takes a token needs room for the calls that read the next one.
-/

namespace ElmSchema.Document

/-- The token under the cursor. -/
def Cursor.current (c : Cursor) : Token :=
  match c.tokens, c.ending with
  | t :: _, _ => t
  | [], .eof position => ⟨.eof, position, position⟩
  | [], .fault _ => ⟨.eof, 0, 0⟩

/-- A parser knows how many calls are under way, and takes tokens from a cursor or finds a
fault. -/
abbrev Parser := ReaderT Nat (StateT Cursor (Except Fault))

namespace Parser

variable {α : Type}

/-- Stop with a syntax error. -/
def fail (position : Nat) (cause : Cause) : Parser α :=
  throw (.invalid ⟨cause, position⟩)

/-- A rule of the grammar, which is one more call than its parts. -/
def rule (p : Parser α) : Parser α := fun calls =>
  p (calls + 1)

/-- Check that the token under the cursor could be read. -/
def uncover : Parser Unit := do
  match ← get with
  | ⟨[], .fault f⟩ => throw f
  | _ => pure ()

/-- The token under the cursor. -/
def current : Parser Token := do
  return (← get).current

/-- Check that there is room for the calls that read the token under the cursor. -/
def requireRoom : Parser Unit := do
  let calls ← read
  match (← current).lexeme.calls[maxCalls - calls]? with
  | some call => throw (.tooDeep call)
  | none => pure ()

/-- Take the token under the cursor. -/
def advance : Parser Unit := do
  modify fun c => { c with tokens := c.tokens.drop 1 }
  requireRoom
  uncover

/-- The token after the one under the cursor, which stays. -/
def lookahead : Parser Token := do
  let c ← get
  let next : Cursor := { c with tokens := c.tokens.drop 1 }
  match next with
  | ⟨[], .fault f⟩ => throw f
  | _ => return next.current

/-- Complain about a token. -/
def unexpected (t : Token) : Parser α :=
  fail t.start (.unexpected t.lexeme)

/-- Complain about the token under the cursor. -/
def unexpectedHere : Parser α := do
  unexpected (← current)

/-- Whether a punctuator is under the cursor. -/
def peek (p : Punctuator) : Parser Bool := do
  return (← current).lexeme == .punct p

/-- Take a punctuator. -/
def expect (p : Punctuator) : Parser Token := do
  let t ← current
  if t.lexeme == .punct p then
    advance
    return t
  else fail t.start (.expected (.punct p) t.lexeme)

/-- Take a punctuator if it is under the cursor. -/
def accept (p : Punctuator) : Parser Bool := do
  if ← peek p then
    advance
    return true
  else return false

/-- Take a name. -/
def name : Parser String := rule do
  let t ← current
  match t.lexeme with
  | .name v =>
    advance
    return v
  | found => fail t.start (.expected .name found)

/-- Take a keyword. -/
def keyword (word : String) : Parser Unit := do
  let t ← current
  if t.lexeme == .name word then advance
  else fail t.start (.expected (.keyword word) t.lexeme)

/-- Take a keyword if it is under the cursor. -/
def acceptKeyword (word : String) : Parser Bool := do
  if (← current).lexeme == .name word then
    advance
    return true
  else return false

/-- The number of steps that suffice for a loop that takes a token in each step. -/
def steps : Parser Nat := do
  return (← get).tokens.length + 1

/-- Items up to a closing punctuator. -/
def itemsUntil (close : Punctuator) (item : Parser α) : Nat → Parser (List α)
  | 0 => unexpectedHere
  | fuel + 1 => do
    if ← accept close then return []
    else
      let x ← item
      let xs ← itemsUntil close item fuel
      return x :: xs

/-- Items between two punctuators, possibly none. -/
def any (opening : Punctuator) (item : Parser α) (close : Punctuator) : Parser (List α) :=
  rule do
    let _ ← expect opening
    itemsUntil close item (← steps)

/-- At least one item and then items up to a closing punctuator. -/
def someUntil (close : Punctuator) (item : Parser α) : Parser (List α) := do
  let x ← item
  let xs ← itemsUntil close item (← steps)
  return x :: xs

/-- Items between two punctuators, at least one. -/
def many (opening : Punctuator) (item : Parser α) (close : Punctuator) : Parser (List α) :=
  rule do
    let _ ← expect opening
    someUntil close item

/-- Items between two punctuators, at least one, or nothing at all. -/
def optionalMany (opening : Punctuator) (item : Parser α) (close : Punctuator) :
    Parser (List α) :=
  rule do
    if ← accept opening then someUntil close item else return []

/-- Items with a delimiter between two of them. -/
def delimited (delimiter : Punctuator) (item : Parser α) : Nat → Parser (List α)
  | 0 => unexpectedHere
  | fuel + 1 => do
    let x ← item
    if ← accept delimiter then
      let xs ← delimited delimiter item fuel
      return x :: xs
    else return [x]

/-- At least one item, with a delimiter between two of them and possibly in front. -/
def delimitedMany (delimiter : Punctuator) (item : Parser α) : Parser (List α) := rule do
  let _ ← accept delimiter
  delimited delimiter item (← steps)

end Parser

end ElmSchema.Document
