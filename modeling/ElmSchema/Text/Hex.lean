import ElmSchema.Text.Blank

/-!
# Hexadecimal digits

Numbers written in base sixteen with a least number of digits, and the values of single
digits.
-/

namespace ElmSchema.Text

/-- The value of a hexadecimal digit, in upper or lower case. -/
def hexValue? (c : Char) : Option Nat :=
  if c.isDigit then some (c.toNat - '0'.toNat)
  else if 'a' ≤ c && c ≤ 'f' then some (c.toNat - 'a'.toNat + 10)
  else if 'A' ≤ c && c ≤ 'F' then some (c.toNat - 'A'.toNat + 10)
  else none

/-- The value of the first four characters, provided that all four are hexadecimal
digits. -/
def hexValue4? : List Char → Option Nat
  | a :: b :: c :: d :: _ => do
    let a ← hexValue? a
    let b ← hexValue? b
    let c ← hexValue? c
    let d ← hexValue? d
    pure (((a * 16 + b) * 16 + c) * 16 + d)
  | _ => none

/-- A number in lower-case hexadecimal with at least `width` digits. -/
def hexLower (width n : Nat) : List Char :=
  padStart '0' width (Nat.toDigits 16 n)

/-- A number in upper-case hexadecimal with at least `width` digits. -/
def hexUpper (width n : Nat) : List Char :=
  (hexLower width n).map Char.toUpper

end ElmSchema.Text
