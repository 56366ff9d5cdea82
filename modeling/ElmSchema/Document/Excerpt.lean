import ElmSchema.Document.Fault
import ElmSchema.Text.Line

/-!
# Reports of syntax errors

A syntax error is reported with its line and column and an excerpt of the text around it.

The place is counted in the lines of the text before the error, so an error at the start
of a line is reported at the end of the line before. The excerpt is taken from the rows of
the whole text. Lines are cut at more characters than rows are: where the line of an error
is not a row of the text, there is no excerpt.
-/

namespace ElmSchema.Document

/-- A line and a column, both counted from one. -/
structure Location where
  line : Nat
  column : Nat
deriving DecidableEq, Repr

/-- The location of an offset. -/
def locate (cs : List Char) (position : Nat) : Location :=
  match (Text.lines (cs.take position)).reverse with
  | [] => ⟨1, 1⟩
  | last :: before => ⟨before.length + 1, last.length + 1⟩

/-- A row of an excerpt: a label and a text. -/
structure Row where
  label : String
  text : List Char

/-- The label of a numbered row. -/
def numbered (line : Nat) : String :=
  toString line ++ " |"

/-- A caret in the given column. -/
def caret (column : Nat) : Row :=
  ⟨"|", Text.padStart ' ' column ['^']⟩

/-- The rows around a location in a text of short rows: the row of the location with a
caret below, between its neighbours. -/
def nearbyRows (rows : List (List Char)) (current : List Char) (place : Location) : List Row :=
  let before :=
    if 2 ≤ place.line then
      (rows[place.line - 2]?.map (Row.mk (numbered (place.line - 1)))).toList
    else []
  let after := (rows[place.line]?.map (Row.mk (numbered (place.line + 1)))).toList
  before ++ [⟨numbered place.line, current⟩, caret place.column] ++ after

/-- The rows around a location in a long row, which is cut in pieces of eighty characters:
the pieces up to the location with a caret below, and the piece that follows. -/
def pieceRows (current : List Char) (place : Location) : List Row :=
  let pieces := Text.pieces 80 current
  let index := place.column / 80
  let first := (pieces[0]?.map (Row.mk (numbered place.line))).toList
  let upTo := ((pieces.drop 1).take index).map (Row.mk "|")
  let after := (pieces[index + 1]?.map (Row.mk "|")).toList
  first ++ upTo ++ [caret (place.column % 80)] ++ after

/-- A row with its label aligned to a width. -/
def Row.render (width : Nat) (row : Row) : String :=
  let label := String.ofList (Text.padStart ' ' width row.label.toList)
  if row.text.isEmpty then label else label ++ " " ++ String.ofList row.text

/-- Rows below each other, their labels aligned to the widest. -/
def renderRows (rows : List Row) : String :=
  let width := rows.foldl (fun w row => max w row.label.length) 0
  "\n".intercalate (rows.map (Row.render width))

/-- The excerpt of a text at a location, provided that its line is a row of the text. -/
def excerpt? (cs : List Char) (place : Location) : Option String :=
  let rows := Text.rows cs
  (rows[place.line - 1]?).map fun current =>
    if 120 < current.length then renderRows (pieceRows current place)
    else renderRows (nearbyRows rows current place)

/-- The report of a syntax error in a text. -/
def SyntaxError.report? (e : SyntaxError) (cs : List Char) : Option String :=
  let place := locate cs e.position
  (excerpt? cs place).map fun rows =>
    "Syntax Error: " ++ e.cause.text ++ "\n\nGraphQL request:" ++ toString place.line ++ ":" ++
      toString place.column ++ "\n" ++ rows

end ElmSchema.Document
