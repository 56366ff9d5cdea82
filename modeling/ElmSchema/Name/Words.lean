/-!
# Words of a name

A name is read as a sequence of words of ASCII letters and digits. A word is a run of
digits, a run of lower-case letters with at most one capital in front, or a run of
capitals. A run of capitals that is followed by a lower-case letter leaves its last capital
to the next word, so `HTTPServer` has the words `HTTP` and `Server`. All other characters
separate words.
-/

namespace ElmSchema.Name

/-- Whether a text starts with a lower-case letter. -/
def startsLower : List Char → Bool
  | [] => false
  | c :: _ => c.isLower

/-- The length of the word at the start of a text, and zero where no word starts. -/
def wordLength : List Char → Nat
  | [] => 0
  | c :: rest =>
    if c.isUpper then
      let capitals := (rest.takeWhile Char.isUpper).length
      if startsLower (rest.dropWhile Char.isUpper) then
        if capitals = 0 then 1 + (rest.takeWhile Char.isLower).length else capitals
      else 1 + capitals
    else if c.isLower then 1 + (rest.takeWhile Char.isLower).length
    else if c.isDigit then 1 + (rest.takeWhile Char.isDigit).length
    else 0

/-- The words of a text, of which the first `skip` characters belong to the word before. -/
def wordsFrom : Nat → List Char → List (List Char)
  | _, [] => []
  | skip + 1, _ :: rest => wordsFrom skip rest
  | 0, c :: rest =>
    match wordLength (c :: rest) with
    | 0 => wordsFrom 0 rest
    | n + 1 => (c :: rest).take (n + 1) :: wordsFrom n rest

/-- The words of a text, from left to right. -/
def words (cs : List Char) : List (List Char) :=
  wordsFrom 0 cs

end ElmSchema.Name
