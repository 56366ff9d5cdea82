import ElmSchema.Number.Rounding
import ElmSchema.Text.Blank

/-!
# Shortest decimals

A binary number is written with the fewest decimal digits that round back to it, and among
those with the digits nearest to it. Numbers from `0.0001` up to `10 ^ 16` are written
positionally with at least one digit after the point, all others with an exponent of at
least two digits.
-/

namespace ElmSchema.Number

/-- The lower end of the interval of numbers that round to `m * 2 ^ e`. -/
def lowerEnd (m : Nat) (e : Int) : Fraction :=
  if m = leastSignificand && -1074 < e then Fraction.ofBinary (4 * m - 1) (e - 2)
  else Fraction.ofBinary (2 * m - 1) (e - 1)

/-- The upper end of the interval of numbers that round to `m * 2 ^ e`. -/
def upperEnd (m : Nat) (e : Int) : Fraction :=
  Fraction.ofBinary (2 * m + 1) (e - 1)

/-- Whether a fraction rounds to `m * 2 ^ e`. The ends of the interval do so for an even
significand only. -/
def roundsTo (m : Nat) (e : Int) (x : Fraction) : Bool :=
  if m % 2 = 0 then (lowerEnd m e).le x && x.le (upperEnd m e)
  else (lowerEnd m e).lt x && x.lt (upperEnd m e)

/-- The number of digits in front of the decimal point of `x`, counted downwards from
zero for the zeros behind the point, starting at a guess that is at least as large. -/
def pointOf (x : Fraction) : Nat → Int → Int
  | 0, guess => guess
  | fuel + 1, guess =>
    if (Fraction.ofDecimal 1 (guess - 1)).le x then guess else pointOf x fuel (guess - 1)

/-- The neighbours of `x` on the grid of step `10 ^ e` that round to `m * 2 ^ k`: the
nearer one, and of two at the same distance the even one. -/
def onGrid (m : Nat) (k : Int) (x : Fraction) (e : Int) : Option Nat :=
  let d := (x.scale 10 e).floor
  let below := roundsTo m k (Fraction.ofDecimal d e)
  let above := roundsTo m k (Fraction.ofDecimal (d + 1) e)
  let middle := Fraction.ofDecimal (10 * d + 5) (e - 1)
  if below && above then
    if x.lt middle then some d
    else if middle.lt x then some (d + 1)
    else if d % 2 = 0 then some d else some (d + 1)
  else if below then some d
  else if above then some (d + 1)
  else none

/-- The first of the grids of `size`, `size + 1`, … digits with a number that rounds to
`m * 2 ^ k`. -/
def firstGrid (m : Nat) (k : Int) (x : Fraction) (point : Int) : Nat → Nat → Nat × Int
  | 0, size => ((x.scale 10 (point - size)).floor, point - size)
  | fuel + 1, size =>
    match onGrid m k x (point - size) with
    | some d => (d, point - size)
    | none => firstGrid m k x point fuel (size + 1)

/-- The shortest decimal of `m * 2 ^ k`: its digits, without zeros at the end, and the
place of the decimal point counted from their start. -/
def shortest (m : Nat) (k : Int) : List Char × Int :=
  if m = 0 then (['0'], 1)
  else
    let x := Fraction.ofBinary m k
    let point := pointOf x 700 310
    let (d, e) := firstGrid m k x point 17 1
    let digits := Nat.toDigits 10 d
    (Text.dropEnd (fun c => c == '0') digits, digits.length + e)

/-- Digits with a decimal point at the given place. -/
def positional (digits : List Char) (point : Int) : List Char :=
  if point ≤ 0 then '0' :: '.' :: (List.replicate (-point).toNat '0' ++ digits)
  else
    let n := point.toNat
    if digits.length ≤ n then
      digits ++ List.replicate (n - digits.length) '0' ++ ['.', '0']
    else digits.take n ++ '.' :: digits.drop n

/-- Digits with a point after the first one and an exponent. -/
def scientific (digits : List Char) (point : Int) : List Char :=
  let e := point - 1
  let sign := if e < 0 then '-' else '+'
  let fraction := if digits.length ≤ 1 then [] else '.' :: digits.drop 1
  digits.take 1 ++ fraction ++ 'e' :: sign :: Text.padStart '0' 2 (Nat.toDigits 10 e.natAbs)

/-- The text of the finite number `m * 2 ^ k`. -/
def finiteText (m : Nat) (k : Int) : List Char :=
  let (digits, point) := shortest m k
  if -4 < point && point ≤ 16 then positional digits point else scientific digits point

end ElmSchema.Number
