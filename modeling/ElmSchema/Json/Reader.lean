import ElmSchema.CallLimit
import ElmSchema.Json.Basic
import ElmSchema.Text.Hex

/-!
# Reading JSON

A reader for JSON texts that reports where a text stops being JSON. Besides the values of
the standard it takes the numbers `NaN`, `Infinity` and `-Infinity`. It refuses integers
with too many digits, and arrays and objects that are nested too deeply.
-/

namespace ElmSchema.Json

/-- Why a text is no JSON. -/
inductive Reason where
  | expectingValue
  | expectingName
  | expectingColon
  | expectingComma
  | extraData
  | unterminatedString
  | controlCharacter
  | badEscape
  | badUnicodeEscape
  | byteOrderMark
deriving DecidableEq, Repr

/-- The wording of a reason. -/
def Reason.text : Reason → String
  | .expectingValue => "Expecting value"
  | .expectingName => "Expecting property name enclosed in double quotes"
  | .expectingColon => "Expecting ':' delimiter"
  | .expectingComma => "Expecting ',' delimiter"
  | .extraData => "Extra data"
  | .unterminatedString => "Unterminated string starting at"
  | .controlCharacter => "Invalid control character at"
  | .badEscape => "Invalid \\escape"
  | .badUnicodeEscape => "Invalid \\uXXXX escape"
  | .byteOrderMark => "Unexpected UTF-8 BOM (decode using utf-8-sig)"

/-- The values that hold other values. -/
inductive Container where
  | array
  | object
deriving DecidableEq, Repr

/-- The name of a container. -/
def Container.name : Container → String
  | .array => "array"
  | .object => "object"

/-- The greatest number of digits of an integer. -/
def maxDigits : Nat :=
  4300

/-- The greatest depth of arrays and objects. Each takes a call, and settings are read while
fifteen calls are under way. -/
def maxDepth : Nat :=
  maxCalls - 15

/-- Why a text cannot be read. -/
inductive Fault where
  /-- The text is no JSON, for a reason that is about the character at an offset. -/
  | malformed (reason : Reason) (offset : Nat)
  /-- An integer has more digits than are read. -/
  | hugeInteger (digits : Nat)
  /-- An array or object lies deeper than is read. -/
  | tooDeep (container : Container)
deriving DecidableEq, Repr

/-- The line and column of an offset in a text, and the offset itself. -/
def placeText (cs : List Char) (offset : Nat) : String :=
  let before := cs.take offset
  let line := before.count '\n' + 1
  let column := (before.reverse.takeWhile fun c => c != '\n').length + 1
  "line " ++ toString line ++ " column " ++ toString column ++ " (char " ++ toString offset ++ ")"

/-- The wording of a fault in the text `cs`. -/
def Fault.message (f : Fault) (cs : List Char) : String :=
  match f with
  | .malformed reason offset => reason.text ++ ": " ++ placeText cs offset
  | .hugeInteger digits =>
    "Exceeds the limit (" ++ toString maxDigits ++
      " digits) for integer string conversion: value has " ++ toString digits ++
      " digits; use sys.set_int_max_str_digits() to increase the limit"
  | .tooDeep container =>
    "maximum recursion depth exceeded while decoding a JSON " ++ container.name ++
      " from a unicode string"

/-- The part of a text that is still to be read, and its offset. -/
structure Remainder where
  offset : Nat
  rest : List Char

/-- A reader takes something from the remainder of a text, or finds a fault. -/
abbrev Reader := StateT Remainder (Except Fault)

namespace Reader

/-- Fail for a reason at the present place. -/
def failHere {α : Type} (reason : Reason) : Reader α := do
  throw (.malformed reason (← get).offset)

/-- Pass `n` characters. -/
def pass (n : Nat) : Reader Unit :=
  modify fun r => ⟨r.offset + n, r.rest.drop n⟩

/-- Whether a character separates the tokens of a JSON text. -/
def isSpace (c : Char) : Bool :=
  c == ' ' || c == '\t' || c == '\n' || c == '\r'

/-- Pass white space. -/
def passSpace : Reader Unit := do
  pass ((← get).rest.takeWhile isSpace).length

/-- The next character. -/
def peek : Reader (Option Char) := do
  return (← get).rest.head?

end Reader

open Reader

/-- The character that a short escape stands for. -/
def shortEscape? : Char → Option Char
  | '"' => some '"'
  | '\\' => some '\\'
  | '/' => some '/'
  | 'b' => some '\x08'
  | 'f' => some '\x0c'
  | 'n' => some '\n'
  | 'r' => some '\r'
  | 't' => some '\t'
  | _ => none

/-- What an escape `\uXXXX` stands for whose backslash is at `offset`, and the number of
characters after the backslash. Two escapes that write a surrogate pair are one
character. At least one character has to follow the digits. -/
def unicodeEscape (offset : Nat) (digits : List Char) : Except Fault (LooseChar × Nat) :=
  if digits.length < 5 then .error (.malformed .badUnicodeEscape (offset + 1))
  else
    match Text.hexValue4? digits with
    | none => .error (.malformed .badUnicodeEscape (offset + 1))
    | some high =>
      let next := digits.drop 4
      if 0xD800 ≤ high && high ≤ 0xDBFF && 7 ≤ next.length && next.take 2 == ['\\', 'u'] then
        match Text.hexValue4? (next.drop 2) with
        | none => .error (.malformed .badUnicodeEscape (offset + 7))
        | some low =>
          if 0xDC00 ≤ low && low ≤ 0xDFFF then
            .ok (.ofCode (0x10000 + (high - 0xD800) * 0x400 + (low - 0xDC00)), 11)
          else .ok (.ofCode high, 5)
      else .ok (.ofCode high, 5)

/-- What an escape stands for whose backslash is at `offset`, and the number of characters
after the backslash. -/
def escape (opening offset : Nat) : List Char → Except Fault (LooseChar × Nat)
  | [] => .error (.malformed .unterminatedString opening)
  | 'u' :: digits => unicodeEscape offset digits
  | c :: _ =>
    match shortEscape? c with
    | some e => .ok (.char e, 1)
    | none => .error (.malformed .badEscape offset)

/-- The rest of a string that was opened at `opening`, where `skip` characters belong to
the escape before: the text it holds and the offset after its closing quote. -/
def stringBody (opening offset : Nat) : Nat → List Char → Except Fault (LooseText × Nat)
  | _, [] => .error (.malformed .unterminatedString opening)
  | skip + 1, _ :: rest => stringBody opening (offset + 1) skip rest
  | 0, c :: rest =>
    if c == '"' then .ok ([], offset + 1)
    else if c == '\\' then do
      let (e, size) ← escape opening offset rest
      let (cs, stop) ← stringBody opening (offset + 1) size rest
      return (e :: cs, stop)
    else if c.toNat ≤ 0x1F then .error (.malformed .controlCharacter offset)
    else do
      let (cs, stop) ← stringBody opening (offset + 1) 0 rest
      return (.char c :: cs, stop)

/-- Read a string, whose opening quote comes next. -/
def readString : Reader LooseText := do
  let r ← get
  let (cs, stop) ← stringBody r.offset (r.offset + 1) 0 (r.rest.drop 1)
  pass (stop - r.offset)
  return cs

/-- The number that a list of digits writes. -/
def digitsValue (digits : List Char) : Nat :=
  digits.foldl (fun n c => 10 * n + (c.toNat - '0'.toNat)) 0

/-- The integral digits of a number: a zero alone or digits that start with another one. -/
def integralDigits : List Char → List Char
  | '0' :: _ => ['0']
  | cs => cs.takeWhile Char.isDigit

/-- The digits of a fraction, provided that a point and at least one digit come next. -/
def fractionDigits : List Char → List Char
  | '.' :: cs => cs.takeWhile Char.isDigit
  | _ => []

/-- The exponent of a number, with the number of characters that write it, provided that
one comes next. -/
def exponentPart (cs : List Char) : Option (Int × Nat) :=
  match cs with
  | e :: rest =>
    if e == 'e' || e == 'E' then
      let signed := rest.head? == some '-' || rest.head? == some '+'
      let digits := (if signed then rest.drop 1 else rest).takeWhile Char.isDigit
      if digits.isEmpty then none
      else
        let value : Int := digitsValue digits
        some (if rest.head? == some '-' then -value else value,
          1 + (if signed then 1 else 0) + digits.length)
    else none
  | [] => none

/-- Read a number. -/
def readNumber : Reader Json := do
  let cs := (← get).rest
  let negative := cs.head? == some '-'
  let signSize := if negative then 1 else 0
  let unsigned := cs.drop signSize
  let integral := integralDigits unsigned
  if integral.isEmpty then failHere .expectingValue
  else
    let fraction := fractionDigits (unsigned.drop integral.length)
    let fractionSize := if fraction.isEmpty then 0 else 1 + fraction.length
    let exponent := exponentPart (unsigned.drop (integral.length + fractionSize))
    pass (signSize + integral.length + fractionSize + (exponent.map (·.2)).getD 0)
    let digits := digitsValue (integral ++ fraction)
    if fraction.isEmpty && exponent.isNone then
      if maxDigits < integral.length then throw (.hugeInteger integral.length)
      return .number (.integer (if negative then -(digits : Int) else digits))
    else
      let e := (exponent.map (·.1)).getD 0
      return .number (.decimal negative digits (e - fraction.length))

/-- Read a constant that is known by its spelling, or else a number. -/
def readAtom : Reader Json := do
  let cs := (← get).rest
  if cs.take 4 == ['n', 'u', 'l', 'l'] then
    pass 4
    return .null
  else if cs.take 4 == ['t', 'r', 'u', 'e'] then
    pass 4
    return .bool true
  else if cs.take 5 == ['f', 'a', 'l', 's', 'e'] then
    pass 5
    return .bool false
  else if cs.take 3 == ['N', 'a', 'N'] then
    pass 3
    return .number .nan
  else if cs.take 8 == "Infinity".toList then
    pass 8
    return .number (.infinity false)
  else if cs.take 9 == "-Infinity".toList then
    pass 9
    return .number (.infinity true)
  else readNumber

/-- Read items up to the closing character, with a comma between two of them. -/
def readItems {α : Type} (close : Char) (item : Reader α) : Nat → Reader (List α)
  | 0 => failHere .expectingComma
  | fuel + 1 => do
    let x ← item
    passSpace
    let next ← peek
    if next == some close then
      pass 1
      return [x]
    else if next == some ',' then
      pass 1
      passSpace
      let xs ← readItems close item fuel
      return x :: xs
    else failHere .expectingComma

/-- Read the rest of a bracketed sequence, whose opening character has been passed. -/
def readSequence {α : Type} (close : Char) (item : Reader α) : Reader (List α) := do
  passSpace
  if (← peek) == some close then
    pass 1
    return []
  else readItems close item ((← get).rest.length + 1)

/-- Read an entry of an object. -/
def readEntry (value : Reader Json) : Reader (LooseText × Json) := do
  if (← peek) == some '"' then
    let key ← readString
    passSpace
    if (← peek) == some ':' then
      pass 1
      passSpace
      let v ← value
      return (key, v)
    else failHere .expectingColon
  else failHere .expectingName

/-- Read a value, given how to read arrays and objects. -/
def readWith (array object : Reader Json) : Reader Json := do
  match ← peek with
  | some '"' => return .string (← readString)
  | some '[' => array
  | some '{' => object
  | _ => readAtom

/-- Read a value that is nested no deeper than `depth`. -/
def readValue : Nat → Reader Json
  | 0 => readWith (throw (.tooDeep .array)) (throw (.tooDeep .object))
  | depth + 1 =>
    readWith
      (do
        pass 1
        return .array (← readSequence ']' (readValue depth)))
      (do
        pass 1
        return ofEntries (← readSequence '}' (readEntry (readValue depth))))

/-- Read a text that holds one value. -/
def readDocument : Reader Json := do
  if (← peek) == some '\ufeff' then failHere .byteOrderMark
  else
    passSpace
    let v ← readValue maxDepth
    passSpace
    if (← get).rest.isEmpty then return v else failHere .extraData

/-- The value that a text writes. -/
def read (cs : List Char) : Except Fault Json :=
  readDocument.run' ⟨0, cs⟩

end ElmSchema.Json
