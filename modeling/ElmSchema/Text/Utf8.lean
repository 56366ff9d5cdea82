import ElmSchema.Text.Hex
import ElmSchema.Text.Loose

/-!
# UTF-8

Reading text from bytes. Where the bytes are no UTF-8 text, the fault names the bytes it
is about: a lead byte and the continuation bytes that fit it. A loose text can be read from
any bytes, since a byte at fault is read as the half that stands for it.
-/

namespace ElmSchema.Text.Utf8

/-- What is wrong with a sequence of bytes. -/
inductive Reason where
  /-- A byte that starts no sequence. -/
  | invalidStart
  /-- A byte that does not continue the sequence before it. -/
  | invalidContinuation
  /-- The bytes end within a sequence. -/
  | unexpectedEnd
deriving DecidableEq, Repr

/-- The wording of a reason. -/
def Reason.text : Reason → String
  | .invalidStart => "invalid start byte"
  | .invalidContinuation => "invalid continuation byte"
  | .unexpectedEnd => "unexpected end of data"

/-- A fault in a sequence of bytes: the offset and value of the lead byte, the number of
bytes at fault, and the reason. -/
structure Fault where
  position : Nat
  byte : UInt8
  size : Nat
  reason : Reason
deriving DecidableEq, Repr

/-- The wording of a fault. -/
def Fault.message (f : Fault) : String :=
  let place :=
    if f.size = 1 then
      "byte 0x" ++ String.ofList (hexLower 2 f.byte.toNat) ++ " in position " ++ toString f.position
    else
      "bytes in position " ++ toString f.position ++ "-" ++ toString (f.position + f.size - 1)
  "'utf-8' codec can't decode " ++ place ++ ": " ++ f.reason.text

/-- The number of continuation bytes that a lead byte asks for, with the range of the
first of them and the bits that the lead byte contributes. -/
structure Lead where
  continuations : Nat
  low : Nat
  high : Nat
  bits : Nat

/-- The demands of a lead byte. The range of the second byte is narrower after `E0`, `ED`,
`F0` and `F4`, so that each character has one form and none is a surrogate. -/
def lead? (b : UInt8) : Option Lead :=
  let n := b.toNat
  if n < 0x80 then some ⟨0, 0x80, 0xBF, n⟩
  else if n < 0xC2 then none
  else if n < 0xE0 then some ⟨1, 0x80, 0xBF, n - 0xC0⟩
  else if n < 0xF0 then
    some ⟨2, if n = 0xE0 then 0xA0 else 0x80, if n = 0xED then 0x9F else 0xBF, n - 0xE0⟩
  else if n < 0xF5 then
    some ⟨3, if n = 0xF0 then 0x90 else 0x80, if n = 0xF4 then 0x8F else 0xBF, n - 0xF0⟩
  else none

/-- Read `count` continuation bytes, the first of them between `low` and `high`, onto the
bits read so far. The error holds the reason and the number of bytes that did fit. -/
def continuation (bits low high fitted : Nat) :
    Nat → List UInt8 → Except (Reason × Nat) Nat
  | 0, _ => .ok bits
  | _ + 1, [] => .error (.unexpectedEnd, fitted)
  | count + 1, b :: rest =>
    if low ≤ b.toNat && b.toNat ≤ high then
      continuation (bits * 64 + (b.toNat - 0x80)) 0x80 0xBF (fitted + 1) count rest
    else .error (.invalidContinuation, fitted)

/-- Read text from bytes that start at offset `position`, where `skip` bytes belong to the
character before. -/
def decodeFrom (position : Nat) : Nat → List UInt8 → Except Fault (List Char)
  | _, [] => .ok []
  | skip + 1, _ :: rest => decodeFrom (position + 1) skip rest
  | 0, b :: rest =>
    match lead? b with
    | none => .error ⟨position, b, 1, .invalidStart⟩
    | some l =>
      match continuation l.bits l.low l.high 0 l.continuations rest with
      | .error (reason, fitted) => .error ⟨position, b, fitted + 1, reason⟩
      | .ok n =>
        match decodeFrom (position + 1) l.continuations rest with
        | .error f => .error f
        | .ok cs => .ok (Char.ofNat n :: cs)

/-- The text that a sequence of bytes writes. -/
def decode (bytes : List UInt8) : Except Fault (List Char) :=
  decodeFrom 0 0 bytes

/-- The bytes of a text. -/
def encode (s : String) : List UInt8 :=
  s.toUTF8.data.toList

/-! ### Loose texts -/

/-- The bytes of a loose text, provided that no half stands alone in it. -/
def encode? (t : LooseText) : Option (List UInt8) :=
  t.toString?.map encode

/-- Read a loose text from bytes, where `skip` bytes belong to the character before. -/
def decodeLooseFrom : Nat → List UInt8 → LooseText
  | _, [] => []
  | skip + 1, _ :: rest => decodeLooseFrom skip rest
  | 0, b :: rest =>
    match lead? b with
    | none => .ofByte b :: decodeLooseFrom 0 rest
    | some l =>
      match continuation l.bits l.low l.high 0 l.continuations rest with
      | .error _ => .ofByte b :: decodeLooseFrom 0 rest
      | .ok n => .char (Char.ofNat n) :: decodeLooseFrom l.continuations rest

/-- The loose text that a sequence of bytes writes. -/
def decodeLoose (bytes : List UInt8) : LooseText :=
  decodeLooseFrom 0 bytes

/-- The bytes of a character, or the byte that a half stands for. -/
def encodeUnit : LooseChar → List UInt8
  | .char c => encode (String.singleton c)
  | x => x.byte?.toList

/-- The bytes of a loose text whose halves all stand for bytes. -/
def encodeLoose (t : LooseText) : List UInt8 :=
  t.flatMap encodeUnit

end ElmSchema.Text.Utf8
