/-!
# Blank characters

The characters that count as blank at the end of a text, and texts with the blanks at
their end removed.
-/

namespace ElmSchema.Text

/-- Whether a character is blank: the white space of Unicode together with the four
separators `U+001C` to `U+001F`. The zero-width characters `U+200B` and `U+FEFF` are not
blank. -/
def isBlank (c : Char) : Bool :=
  let n := c.toNat
  (0x09 ≤ n && n ≤ 0x0D) || (0x1C ≤ n && n ≤ 0x20) || n == 0x85 || n == 0xA0 ||
    n == 0x1680 || (0x2000 ≤ n && n ≤ 0x200A) || n == 0x2028 || n == 0x2029 ||
    n == 0x202F || n == 0x205F || n == 0x3000

/-- A list without the elements at its end that satisfy `p`. -/
def dropEnd (p : Char → Bool) (cs : List Char) : List Char :=
  (cs.reverse.dropWhile p).reverse

/-- A text without the blanks at its end. -/
def trimEnd (s : String) : String :=
  String.ofList (dropEnd isBlank s.toList)

/-- A text without the newlines at its end. -/
def trimNewlines (s : String) : String :=
  String.ofList (dropEnd (fun c => c == '\n') s.toList)

/-- A text preceded by as many copies of `fill` as its width needs. -/
def padStart (fill : Char) (width : Nat) (cs : List Char) : List Char :=
  List.replicate (width - cs.length) fill ++ cs

end ElmSchema.Text
