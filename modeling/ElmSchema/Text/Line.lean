/-!
# Lines of a text

A text is cut into lines by two rules. The rule of `rows` knows the three line breaks
`\n`, `\r` and `\r\n`, and a line break at the end of the text is followed by an empty
row. The rule of `lines` knows the other vertical boundaries of Unicode as well, and a
boundary at the end of the text ends the last line.
-/

namespace ElmSchema.Text

/-- Whether a character ends a line by the rule of `lines`. -/
def isBoundary (c : Char) : Bool :=
  let n := c.toNat
  (0x0A ≤ n && n ≤ 0x0D) || (0x1C ≤ n && n ≤ 0x1E) || n == 0x85 || n == 0x2028 || n == 0x2029

/-- Put a character in front of the first line. -/
def consLine (c : Char) : List (List Char) → List (List Char)
  | [] => [[c]]
  | line :: rest => (c :: line) :: rest

/-- The lines of a text, cut at every vertical boundary. The pair `\r\n` is one boundary,
and nothing follows a boundary at the end of the text. -/
def lines : List Char → List (List Char)
  | [] => []
  | '\r' :: '\n' :: rest => [] :: lines rest
  | c :: rest => if isBoundary c then [] :: lines rest else consLine c (lines rest)

/-- The rows of a text, cut at `\r\n`, `\n` and `\r` only. There is always a last row,
empty after a line break at the end of the text. -/
def rows : List Char → List (List Char)
  | [] => [[]]
  | '\r' :: '\n' :: rest => [] :: rows rest
  | c :: rest => if c == '\n' || c == '\r' then [] :: rows rest else consLine c (rows rest)

/-- A text with each line break `\r\n` or `\r` turned into `\n`. -/
def unifyNewlines : List Char → List Char
  | [] => []
  | '\r' :: '\n' :: rest => '\n' :: unifyNewlines rest
  | c :: rest => (if c == '\r' then '\n' else c) :: unifyNewlines rest

/-- A list cut in pieces of at most `size` elements, where `skip` elements of the present
piece are still to pass. -/
def piecesFrom (size : Nat) : Nat → List Char → List (List Char)
  | _, [] => []
  | skip + 1, _ :: rest => piecesFrom size skip rest
  | 0, c :: rest => (c :: rest).take size :: piecesFrom size (size - 1) rest

/-- A list cut in pieces of `size` elements; the last piece may be shorter. -/
def pieces (size : Nat) (cs : List Char) : List (List Char) :=
  piecesFrom size 0 cs

end ElmSchema.Text
