/-!
# Control sequences

A control sequence steers a terminal. It starts with an escape character and an opening
bracket, goes on with digits, semicolons and question marks, and ends in a letter. What is
printed for a reader is printed without such sequences. They are found from left to right,
so the characters around one that is left out never make a new one.
-/

namespace ElmSchema.Text

/-- Whether a character may stand between the bracket and the letter. -/
def isControlParameter (c : Char) : Bool :=
  c == ';' || c == '?' || c.isDigit

/-- The length of the control sequence that a text starts with, and zero if it starts with
none. -/
def controlLength : List Char → Nat
  | '\x1b' :: '[' :: rest =>
    let parameters := (rest.takeWhile isControlParameter).length
    match rest.drop parameters with
    | [] => 0
    | c :: _ => if c.isAlpha then parameters + 3 else 0
  | _ => 0

/-- A text without control sequences, where the first `skip` characters belong to one. -/
def dropControls : Nat → List Char → List Char
  | _, [] => []
  | skip + 1, _ :: rest => dropControls skip rest
  | 0, c :: rest =>
    match controlLength (c :: rest) with
    | 0 => c :: dropControls 0 rest
    | size + 1 => dropControls size rest

/-- A text without control sequences. -/
def withoutControls (s : String) : String :=
  String.ofList (dropControls 0 s.toList)

end ElmSchema.Text
