/-!
# Fractions

Fractions of natural numbers, as far as the text of a number asks for them: the fractions
of binary and decimal numbers, their order, and their integral parts on a decimal grid.
-/

namespace ElmSchema.Number

/-- A fraction of two natural numbers. -/
structure Fraction where
  num : Nat
  den : Nat
deriving DecidableEq, Repr

namespace Fraction

/-- Whether a fraction is at most another. -/
def le (x y : Fraction) : Bool :=
  x.num * y.den ≤ y.num * x.den

/-- Whether a fraction is less than another. -/
def lt (x y : Fraction) : Bool :=
  x.num * y.den < y.num * x.den

/-- The fraction `n * base ^ e`. -/
def ofPower (base n : Nat) (e : Int) : Fraction :=
  if 0 ≤ e then ⟨n * Nat.pow base e.toNat, 1⟩ else ⟨n, Nat.pow base (-e).toNat⟩

/-- The fraction `m * 2 ^ e`. -/
def ofBinary (m : Nat) (e : Int) : Fraction :=
  ofPower 2 m e

/-- The fraction `d * 10 ^ e`. -/
def ofDecimal (d : Nat) (e : Int) : Fraction :=
  ofPower 10 d e

/-- The fraction `x * base ^ (-e)`. -/
def scale (base : Nat) (x : Fraction) (e : Int) : Fraction :=
  if 0 ≤ e then ⟨x.num, x.den * Nat.pow base e.toNat⟩
  else ⟨x.num * Nat.pow base (-e).toNat, x.den⟩

/-- The integral part of a fraction. -/
def floor (x : Fraction) : Nat :=
  x.num / x.den

/-- The integer nearest to a fraction, ties going to the even one. -/
def round (x : Fraction) : Nat :=
  let q := x.num / x.den
  let r := x.num % x.den
  if 2 * r < x.den then q
  else if x.den < 2 * r then q + 1
  else if q % 2 = 0 then q else q + 1

end Fraction

end ElmSchema.Number
