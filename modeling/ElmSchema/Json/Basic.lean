import ElmSchema.Number.Shortest
import ElmSchema.Text.Loose

/-!
# JSON values

The values that settings files hold. Objects keep their entries in the order in which
their keys first occur. Strings and keys are loose texts, since a JSON text can write halves
of surrogate pairs that stand alone.
-/

namespace ElmSchema

/-- A number of a JSON text. A number without fraction and exponent is an integer, any
other one a decimal `± digits * 10 ^ exponent`. -/
inductive JsonNumber where
  | integer (value : Int)
  | decimal (negative : Bool) (digits : Nat) (exponent : Int)
  | infinity (negative : Bool)
  | nan
deriving DecidableEq, Repr

/-- A JSON value. -/
inductive Json where
  | null
  | bool (value : Bool)
  | number (value : JsonNumber)
  | string (value : LooseText)
  | array (items : List Json)
  | object (entries : List (LooseText × Json))
deriving Inhabited

namespace JsonNumber

/-- Whether a number is zero. A decimal is zero when it rounds to zero. -/
def isZero : JsonNumber → Bool
  | .integer n => n == 0
  | .decimal _ digits exponent =>
    match Number.roundDecimal digits exponent with
    | .finite m _ => m == 0
    | .infinite => false
  | .infinity _ => false
  | .nan => false

/-- The text of a number, in which `infinite` stands for infinity and `undefined` for an
undefined number. -/
def text (infinite undefined : String) : JsonNumber → String
  | .integer n => toString n
  | .decimal negative digits exponent =>
    let sign := if negative then "-" else ""
    match Number.roundDecimal digits exponent with
    | .finite m k => sign ++ String.ofList (Number.finiteText m k)
    | .infinite => sign ++ infinite
  | .infinity negative => (if negative then "-" else "") ++ infinite
  | .nan => undefined

end JsonNumber

namespace Json

/-- The value under a key among entries. -/
def entryAt? (key : String) (entries : List (LooseText × Json)) : Option Json :=
  entries.lookup (LooseText.ofString key)

/-- The value under a key of an object. -/
def get? (key : String) : Json → Option Json
  | .object entries => entryAt? key entries
  | _ => none

/-- Whether a value counts as true: all but `null`, `false`, zero and what is empty. -/
def isTrue : Json → Bool
  | .null => false
  | .bool b => b
  | .number n => !n.isZero
  | .string s => !s.isEmpty
  | .array items => !items.isEmpty
  | .object entries => !entries.isEmpty

/-- Entries with a further one. An entry under the same key is replaced in its place. -/
def insertEntry (key : LooseText) (value : Json) :
    List (LooseText × Json) → List (LooseText × Json)
  | [] => [(key, value)]
  | entry :: rest =>
    if entry.1 == key then (key, value) :: rest else entry :: insertEntry key value rest

/-- The object with the given entries, in which a later entry replaces an earlier one
under the same key. -/
def ofEntries (entries : List (LooseText × Json)) : Json :=
  .object (entries.foldl (fun acc entry => insertEntry entry.1 entry.2 acc) [])

end Json

end ElmSchema
