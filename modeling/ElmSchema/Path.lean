import ElmSchema.Name.Case
import ElmSchema.Text.Utf8

/-!
# Paths

A path is a root and a list of parts. Empty parts and the part `.` vanish when a path is
read, while `..` stays. The name of a path is its last part; a name splits into a stem and
a suffix at its last dot, unless the dot is its first or last character.

The parts are loose texts, since the names of files need not be UTF-8. Two parts name the
same file if they stand for the same bytes.
-/

namespace ElmSchema

/-- A path of the file system. The root is empty for a relative path, and otherwise the
slashes the path starts with. -/
structure Path where
  root : String
  parts : List LooseText
deriving DecidableEq, Repr

namespace Path

/-- The pieces of a text between the occurrences of a separator. -/
def splitAt (separator : LooseChar) : LooseText → List LooseText
  | [] => [[]]
  | x :: rest =>
    if x == separator then [] :: splitAt separator rest
    else
      match splitAt separator rest with
      | [] => [[x]]
      | piece :: pieces => (x :: piece) :: pieces

/-- The root that a text starts with. Exactly two slashes are kept, any other number of
them counts as one. -/
def rootOf (text : LooseText) : String :=
  match (text.takeWhile fun x => x == .char '/').length with
  | 0 => ""
  | 2 => "//"
  | _ => "/"

/-- The part that leads to the directory itself. -/
def here : LooseText :=
  [.char '.']

/-- The part that leads to the directory above. -/
def up : LooseText :=
  [.char '.', .char '.']

/-- The path that a text writes. -/
def ofText (text : LooseText) : Path where
  root := rootOf text
  parts := (splitAt (.char '/') text).filter fun part => !part.isEmpty && part != here

/-- The loose text of a path. The relative path without parts is written `.`. -/
def looseText (p : Path) : LooseText :=
  if p.root == "" && p.parts.isEmpty then here
  else LooseText.ofString p.root ++ List.intercalate [.char '/'] p.parts

/-- The text that shows a path. -/
def text (p : Path) : String :=
  p.looseText.shown

/-- The path of one part inside a directory. -/
def child (p : Path) (part : LooseText) : Path :=
  { p with parts := p.parts ++ [part] }

/-- A text read as a path from a base. An absolute text forgets the base. -/
def join (base : Path) (text : LooseText) : Path :=
  let p := ofText text
  if p.root == "" then { base with parts := base.parts ++ p.parts } else p

/-- The directory that a path lies in. The parent of a root is the root. -/
def parent (p : Path) : Path :=
  { p with parts := p.parts.dropLast }

/-- Whether a path holds the NUL character. -/
def hasNull (p : Path) : Bool :=
  p.parts.any fun part => part.contains (.char '\x00')

/-- The last part of a path, and the empty text where there is none. -/
def name (p : Path) : LooseText :=
  p.parts.getLast?.getD []

/-- The stem and the suffix of a name. -/
def splitName (name : LooseText) : LooseText × LooseText :=
  let tail := (name.reverse.takeWhile fun x => x != .char '.').length
  let stem := name.length - tail - 1
  if 0 < stem && 0 < tail && tail < name.length then (name.take stem, name.drop stem)
  else (name, [])

/-- The name of a path without its suffix. -/
def stem (p : Path) : LooseText :=
  (splitName p.name).1

/-- The suffix of a path, with its dot. -/
def suffix (p : Path) : LooseText :=
  (splitName p.name).2

/-- The parts that remain when each `..` takes away the part before it. -/
def collapse : List LooseText → List LooseText → List LooseText
  | done, [] => done
  | done, part :: rest => collapse (if part == up then done.dropLast else done ++ [part]) rest

/-- An absolute path without `..`, of the same text as far as the text alone can tell. -/
def normalize (p : Path) : Path :=
  { p with parts := collapse [] p.parts }

/-- The name that a part stands for. Halves whose bytes make up a character are that
character. -/
def settled (part : LooseText) : LooseText :=
  if part.hasHalf then Text.Utf8.decodeLoose (Text.Utf8.encodeLoose part) else part

/-- The names that the parts of a path stand for. -/
def names (p : Path) : List LooseText :=
  p.parts.map settled

/-- The name of the module that is made from the schema file at a path. A half separates
words as any other character that is no letter or digit. -/
def moduleName (p : Path) : String :=
  Name.pascal p.stem.repaired

end Path

end ElmSchema
