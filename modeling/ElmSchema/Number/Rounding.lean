import ElmSchema.Number.Fraction

/-!
# Rounding decimals to binary

A decimal number is rounded to the nearest number with a significand of 53 bits and an
exponent of at least -1074, ties going to the even significand. Numbers from `2 ^ 1024` on
are infinite.
-/

namespace ElmSchema.Number

/-- A magnitude in binary: `significand * 2 ^ exponent`, or infinity. -/
inductive Magnitude where
  | finite (significand : Nat) (exponent : Int)
  | infinite
deriving DecidableEq, Repr

/-- The magnitude zero. -/
def Magnitude.zero : Magnitude :=
  .finite 0 (-1074)

/-- The least significand of 53 bits. -/
def leastSignificand : Nat :=
  0x10000000000000

/-- The exponent at which a positive fraction has a significand of 53 bits, unless the
fraction is too small for that. -/
def exponentFor (x : Fraction) : Int :=
  let guess : Int := (x.num.log2 : Int) - (x.den.log2 : Int) - 52
  let exact := if (x.scale 2 guess).floor < leastSignificand then guess - 1 else guess
  if exact < -1074 then -1074 else exact

/-- A positive fraction rounded to binary. -/
def roundFraction (x : Fraction) : Magnitude :=
  let e := exponentFor x
  let m := (x.scale 2 e).round
  let (m, e) := if m = 2 * leastSignificand then (leastSignificand, e + 1) else (m, e)
  if 971 < e then .infinite else .finite m e

/-- The decimal `digits * 10 ^ exponent` rounded to binary. Exponents that are far out of
range are decided by the number of digits alone. -/
def roundDecimal (digits : Nat) (exponent : Int) : Magnitude :=
  if digits = 0 then .zero
  else
    let size : Int := (Nat.toDigits 10 digits).length + exponent
    if 400 < size then .infinite
    else if size < -400 then .zero
    else roundFraction (.ofDecimal digits exponent)

end ElmSchema.Number
