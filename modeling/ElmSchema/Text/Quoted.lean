import ElmSchema.Text.Hex
import ElmSchema.Text.Loose
import ElmSchema.Text.Printable

/-!
# Quoted text

Texts as they stand in messages: between quotes, with a backslash in front of the closing
quote and of backslashes, and with escapes for what cannot be printed.
-/

namespace ElmSchema.Text

/-- The quote around a text: a double quote where the text has single quotes and no double
ones, otherwise a single quote. -/
def quoteFor (cs : List Char) : Char :=
  if cs.contains '\'' && !cs.contains '"' then '"' else '\''

/-- A character of a text that stands between two copies of `quote`. -/
def quotedChar (quote c : Char) : List Char :=
  if c == quote || c == '\\' then ['\\', c]
  else if c == '\n' then ['\\', 'n']
  else if c == '\r' then ['\\', 'r']
  else if c == '\t' then ['\\', 't']
  else if isPrintable c then [c]
  else if c.toNat ≤ 0xFF then '\\' :: 'x' :: hexLower 2 c.toNat
  else if c.toNat ≤ 0xFFFF then '\\' :: 'u' :: hexLower 4 c.toNat
  else '\\' :: 'U' :: hexLower 8 c.toNat

/-- A unit of a loose text that stands between two copies of `quote`. -/
def quotedUnit (quote : Char) : LooseChar → List Char
  | .char c => quotedChar quote c
  | x => x.shown

/-- A loose text between quotes. -/
def quotedLoose (t : LooseText) : String :=
  let quote := quoteFor (t.filterMap LooseChar.char?)
  String.ofList (quote :: t.flatMap (quotedUnit quote) ++ [quote])

/-- A text between quotes. -/
def quoted (s : String) : String :=
  let cs := s.toList
  let quote := quoteFor cs
  String.ofList (quote :: cs.flatMap (quotedChar quote) ++ [quote])

end ElmSchema.Text
