import ElmSchema.Text.Hex

/-!
# Loose texts

A character beyond the first 65536 can be written as a pair of surrogates. A JSON text may
write one half of a pair alone. Such a half is no character, so a text that holds one is no
string. A loose text is a list of characters and of halves that stand alone.

The name of a file is a sequence of bytes, which need not be UTF-8. The halves from `DC80` to
`DCFF` stand for the bytes from `80` to `FF` in it, and all other halves stand for nothing.
-/

namespace ElmSchema

/-- A character, or a half of a surrogate pair that stands alone. The halves are counted
from `D800` on. -/
inductive LooseChar where
  | char (c : Char)
  | half (index : Fin 0x800)
deriving DecidableEq, Repr

/-- A text in which halves of surrogate pairs may stand alone. -/
abbrev LooseText := List LooseChar

namespace LooseChar

/-- The code of a character or half. -/
def code : LooseChar → Nat
  | .char c => c.toNat
  | .half index => 0xD800 + index.val

/-- What a code stands for. -/
def ofCode (code : Nat) : LooseChar :=
  if h : 0xD800 ≤ code ∧ code < 0xE000 then .half ⟨code - 0xD800, by omega⟩
  else .char (Char.ofNat code)

/-- The character, if it is one. -/
def char? : LooseChar → Option Char
  | .char c => some c
  | .half _ => none

/-- Whether it is a half. -/
def isHalf : LooseChar → Bool
  | .char _ => false
  | .half _ => true

/-- The byte that a half stands for in the name of a file. -/
def byte? : LooseChar → Option UInt8
  | .char _ => none
  | .half index =>
    if 0x480 ≤ index.val && index.val < 0x500 then some (UInt8.ofNat (index.val - 0x400))
    else none

/-- The half that stands for a byte. -/
def ofByte (b : UInt8) : LooseChar :=
  .half ⟨0x400 + b.toNat, by have := b.toNat_lt; omega⟩

/-- Whether it can stand in the name of a file. -/
def isNameable (x : LooseChar) : Bool :=
  !x.isHalf || x.byte?.isSome

/-- The number of bytes in the name of a file. -/
def byteSize : LooseChar → Nat
  | .char c => c.utf8Size
  | .half _ => 1

/-- The escape of a half, or the character itself. -/
def shown : LooseChar → List Char
  | .char c => [c]
  | .half index => '\\' :: 'u' :: Text.hexLower 4 (0xD800 + index.val)

/-- The order of the codes. -/
instance : LT LooseChar :=
  ⟨fun a b => a.code < b.code⟩

instance : DecidableLT LooseChar :=
  fun a b => inferInstanceAs (Decidable (a.code < b.code))

end LooseChar

namespace LooseText

/-- The loose text of a string. -/
def ofString (s : String) : LooseText :=
  s.toList.map .char

/-- The string of a loose text, provided that no half stands alone in it. -/
def toString? (t : LooseText) : Option String :=
  (t.mapM LooseChar.char?).map String.ofList

/-- The string that shows a loose text, with escapes for the halves. -/
def shown (t : LooseText) : String :=
  String.ofList (t.flatMap LooseChar.shown)

/-- The string of a loose text, with the replacement character for each half. -/
def repaired (t : LooseText) : String :=
  String.ofList (t.map fun x => x.char?.getD '\ufffd')

/-- Whether a half stands alone in a text. -/
def hasHalf (t : LooseText) : Bool :=
  t.any LooseChar.isHalf

/-- The number of bytes of a text in the name of a file. -/
def byteSize : LooseText → Nat
  | [] => 0
  | x :: rest => x.byteSize + byteSize rest

/-- The wording for a text that has to be written as bytes and holds a unit that does not
fit: the first such unit and the halves right after it are at fault. -/
def unfitMessage (fits : LooseChar → Bool) (t : LooseText) : String :=
  let first := (t.takeWhile fits).length
  let run := (t.drop first).takeWhile LooseChar.isHalf
  let place :=
    match run with
    | [x] => "character '" ++ String.ofList x.shown ++ "' in position " ++ toString first
    | _ =>
      "characters in position " ++ toString first ++ "-" ++ toString (first + run.length - 1)
  "'utf-8' codec can't encode " ++ place ++ ": surrogates not allowed"

end LooseText

instance : Coe String LooseText :=
  ⟨LooseText.ofString⟩

end ElmSchema
