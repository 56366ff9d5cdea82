import ElmSchema.Document.Fault
import ElmSchema.Text.Line

/-!
# Literals

The numbers and strings of a document. Each reader is given the text from the start of the
literal on, with the offset of that start, and tells where the literal ends.
-/

namespace ElmSchema.Document

/-- Whether a name may start with a character. -/
def isNameStart (c : Char) : Bool :=
  c.isAlpha || c == '_'

/-- Whether a name may go on with a character. -/
def isNameContinue (c : Char) : Bool :=
  c.isAlphanum || c == '_'

/-- Whether a character breaks a line. -/
def isNewline (c : Char) : Bool :=
  c == '\n' || c == '\r'

/-! ### Numbers -/

/-- The number of digits at the start of a text, at least one. -/
def digitCount (position : Nat) (cs : List Char) : Except Fault Nat :=
  match (cs.takeWhile Char.isDigit).length with
  | 0 => failAt position (.expectedDigit cs.head?)
  | n + 1 => .ok (n + 1)

/-- The length of the integral part of a number: a zero alone or a run of digits. -/
def integralLength (position : Nat) : List Char → Except Fault Nat
  | '0' :: rest =>
    match rest.head? with
    | some c => if c.isDigit then failAt (position + 1) (.digitAfterZero c) else .ok 1
    | none => .ok 1
  | cs => digitCount position cs

/-- The length of the fraction at the start of a text, zero where there is none. -/
def fractionLength (position : Nat) : List Char → Except Fault Nat
  | '.' :: rest => do
    let n ← digitCount (position + 1) rest
    return n + 1
  | _ => .ok 0

/-- The length of the exponent at the start of a text, zero where there is none. -/
def exponentLength (position : Nat) : List Char → Except Fault Nat
  | e :: rest =>
    if e == 'e' || e == 'E' then
      let signSize := if rest.head? == some '+' || rest.head? == some '-' then 1 else 0
      do
        let n ← digitCount (position + 1 + signSize) (rest.drop signSize)
        return n + 1 + signSize
    else .ok 0
  | [] => .ok 0

/-- Check that a number is not followed by a point or a name. -/
def checkNumberEnd (position : Nat) : List Char → Except Fault Unit
  | c :: _ =>
    if c == '.' || isNameStart c then failAt position (.expectedDigit (some c)) else .ok ()
  | [] => .ok ()

/-- Read a number. It is a float if it has a fraction or an exponent. -/
def readNumber (start : Nat) (cs : List Char) : Except Fault Token := do
  let signSize := if cs.head? == some '-' then 1 else 0
  let integral ← integralLength (start + signSize) (cs.drop signSize)
  let n := signSize + integral
  let fraction ← fractionLength (start + n) (cs.drop n)
  let m := n + fraction
  let exponent ← exponentLength (start + m) (cs.drop m)
  let size := m + exponent
  checkNumberEnd (start + size) (cs.drop size)
  let spelling := String.ofList (cs.take size)
  let lexeme := if fraction = 0 && exponent = 0 then .int spelling else .float spelling
  return ⟨lexeme, start, start + size⟩

/-! ### Strings -/

/-- Whether a number is the code point of a character. -/
def isScalar (n : Nat) : Bool :=
  n ≤ 0xD7FF || (0xE000 ≤ n && n ≤ 0x10FFFF)

/-- The character that an escape of one letter stands for. -/
def letterEscape? : Char → Option Char
  | '"' => some '"'
  | '/' => some '/'
  | '\\' => some '\\'
  | 'b' => some '\x08'
  | 'f' => some '\x0c'
  | 'n' => some '\n'
  | 'r' => some '\r'
  | 't' => some '\t'
  | _ => none

/-- The fault of a Unicode escape at `position`, of which the first `size` characters are
shown. -/
def badUnicodeEscape {α : Type} (position size : Nat) (rest : List Char) : Except Fault α :=
  failAt position (.invalidUnicodeEscape (String.ofList (('\\' :: rest).take size)))

/-- The digits of an escape in braces, read up to the closing brace. At most `room` further
characters are read, `size` characters of the escape have been read before, and their
digits write `point`. The error holds the number of characters read. -/
def bracedEscape (size point : Nat) : Nat → List Char → Except Nat (Char × Nat)
  | 0, _ => .error size
  | _ + 1, [] => .error size
  | room + 1, c :: rest =>
    if c == '}' then
      if size + 1 < 5 || !isScalar point then .error (size + 1)
      else .ok (Char.ofNat point, size + 1)
    else
      match Text.hexValue? c with
      | none => .error (size + 1)
      | some d => bracedEscape (size + 1) (16 * point + d) room rest

/-- The character of a Unicode escape with four digits, or of two such escapes that write
a surrogate pair, and the length of the escape. `rest` is the text after the backslash. -/
def fixedEscape (position : Nat) (rest : List Char) : Except Fault (Char × Nat) :=
  let digits := rest.drop 1
  if digits.length < 4 then .error .truncatedEscape
  else
    match Text.hexValue4? digits with
    | none => badUnicodeEscape position 6 rest
    | some high =>
      if isScalar high then .ok (Char.ofNat high, 6)
      else if high ≤ 0xDBFF && (digits.drop 4).take 2 == ['\\', 'u'] then
        let more := digits.drop 6
        if more.length < 4 then .error .truncatedEscape
        else
          match Text.hexValue4? more with
          | none => badUnicodeEscape position 6 rest
          | some low =>
            if 0xDC00 ≤ low && low ≤ 0xDFFF then
              .ok (Char.ofNat (0x10000 + (high - 0xD800) * 0x400 + (low - 0xDC00)), 12)
            else badUnicodeEscape position 6 rest
      else badUnicodeEscape position 6 rest

/-- The character of the escape whose backslash stands at `position`, and the length of
the escape. `rest` is the text after the backslash. -/
def readEscape (position : Nat) (rest : List Char) : Except Fault (Char × Nat) :=
  match rest with
  | [] => .error .truncatedEscape
  | 'u' :: '{' :: digits =>
    match bracedEscape 3 0 (min 12 (rest.length + 1) - 3) digits with
    | .ok result => .ok result
    | .error size => badUnicodeEscape position size rest
  | 'u' :: _ => fixedEscape position rest
  | c :: _ =>
    match letterEscape? c with
    | some e => .ok (e, 2)
    | none => failAt position (.invalidEscape (String.ofList ['\\', c]))

/-- The rest of a string from `position` on, where `skip` characters belong to the escape
before: the text it holds and the offset after its closing quote. -/
def stringBody (position : Nat) : Nat → List Char → Except Fault (List Char × Nat)
  | _, [] => failAt position .unterminatedString
  | skip + 1, _ :: rest => stringBody (position + 1) skip rest
  | 0, c :: rest =>
    if c == '"' then .ok ([], position + 1)
    else if c == '\\' then do
      let (e, size) ← readEscape position rest
      let (cs, stop) ← stringBody (position + 1) (size - 1) rest
      return (e :: cs, stop)
    else if isNewline c then failAt position .unterminatedString
    else do
      let (cs, stop) ← stringBody (position + 1) 0 rest
      return (c :: cs, stop)

/-- Read a string. -/
def readString (start : Nat) (cs : List Char) : Except Fault Token := do
  let (text, stop) ← stringBody (start + 1) 0 (cs.drop 1)
  return ⟨.string (String.ofList text), start, stop⟩

/-! ### Block strings -/

/-- The rest of a block string from `position` on, where `skip` characters have been read
already: its lines and the offset after its closing quotes. -/
def blockBody (position : Nat) : Nat → List Char → Except Fault (List (List Char) × Nat)
  | _, [] => failAt position .unterminatedString
  | skip + 1, _ :: rest => blockBody (position + 1) skip rest
  | 0, c :: rest =>
    if c == '"' && rest.take 2 == ['"', '"'] then .ok ([[]], position + 3)
    else if c == '\\' && rest.take 3 == ['"', '"', '"'] then do
      let (lines, stop) ← blockBody (position + 1) 3 rest
      return (Text.consLine '"' (Text.consLine '"' (Text.consLine '"' lines)), stop)
    else if isNewline c then do
      let skip := if c == '\r' && rest.head? == some '\n' then 1 else 0
      let (lines, stop) ← blockBody (position + 1) skip rest
      return ([] :: lines, stop)
    else do
      let (lines, stop) ← blockBody (position + 1) 0 rest
      return (Text.consLine c lines, stop)

/-- The number of spaces and tabs at the start of a line. -/
def indentOf (line : List Char) : Nat :=
  (line.takeWhile fun c => c == ' ' || c == '\t').length

/-- Whether a line holds spaces and tabs only. -/
def isBlankLine (line : List Char) : Bool :=
  indentOf line == line.length

/-- The smallest indent of the lines that are not blank. -/
def commonIndent? (lines : List (List Char)) : Option Nat :=
  ((lines.filter fun line => !isBlankLine line).map indentOf).min?

/-- Lines without the blank ones at the start and at the end. -/
def trimBlankLines (lines : List (List Char)) : List (List Char) :=
  ((lines.dropWhile isBlankLine).reverse.dropWhile isBlankLine).reverse

/-- The lines of a block string without their common indent, which the first line does not
count for and does not lose, and without blank lines at both ends. -/
def dedent : List (List Char) → List (List Char)
  | [] => []
  | first :: rest =>
    trimBlankLines (first :: rest.map (List.drop ((commonIndent? rest).getD 0)))

/-- Read a block string. -/
def readBlockString (start : Nat) (cs : List Char) : Except Fault Token := do
  let (lines, stop) ← blockBody (start + 3) 0 (cs.drop 3)
  let text := "\n".intercalate ((dedent lines).map String.ofList)
  return ⟨.blockString text, start, stop⟩

end ElmSchema.Document
