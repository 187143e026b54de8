/-!
# Decimals and finite doubles

`Decimal` is a natural number of units of a power of ten; `Decimal.toFloat` is the double nearest
to it. `Binary` is the exact value of a finite double, a natural number of units of a power of
two, from which exact comparisons and whole values are read.
-/
namespace TemplateBar

/-- The value `digits * 10 ^ exponent`. -/
structure Decimal where
  digits : Nat
  exponent : Int
  deriving DecidableEq, Repr

namespace Decimal

/-- The number spelled by a list of decimal digits. -/
def natOfDigits (cs : List Char) : Nat := cs.foldl (fun n c => 10 * n + (c.toNat - 48)) 0

/-- The decimal digits of a number, without leading zeros; zero is one digit. -/
def digitsOfNat (n : Nat) : List Char := Nat.toDigits 10 n

def digitsOfInt (i : Int) : List Char :=
  if i < 0 then '-' :: digitsOfNat i.natAbs else digitsOfNat i.natAbs

def infinity : Float := Float.ofBits 0x7FF0000000000000

def notANumber : Float := Float.ofBits 0x7FF8000000000000

/-- The nearest double. Far outside the range of doubles no power of ten is computed. -/
def toFloat (d : Decimal) : Float :=
  if d.digits = 0 then 0
  else
    let top : Int := (digitsOfNat d.digits).length + d.exponent
    if top > 400 then infinity
    else if top < -400 then 0
    else Float.ofScientific d.digits (d.exponent < 0) d.exponent.natAbs

end Decimal

/-- The value `mantissa * 2 ^ exponent` of a finite double without its sign. -/
structure Binary where
  mantissa : Nat
  exponent : Int
  /-- The gap to the value below is half the gap to the value above. -/
  narrowBelow : Bool
  deriving DecidableEq, Repr

namespace Binary

/-- The exact value of a finite double, its sign apart. -/
def ofFloat (x : Float) : Binary :=
  let bits := x.toBits.toNat
  let e : Nat := bits / 0x10000000000000 % 0x800
  let f : Nat := bits % 0x10000000000000
  if e = 0 then ⟨f, -1074, false⟩
  else ⟨0x10000000000000 + f, (e : Int) - 1075, f == 0 && e > 1⟩

/-- Numerator and denominator of the value. -/
def toFraction (b : Binary) : Nat × Nat :=
  (b.mantissa * Nat.pow 2 b.exponent.toNat, Nat.pow 2 (-b.exponent).toNat)

end Binary

/-- The sign bit is set. -/
def isNegative (x : Float) : Bool := x.toBits ≥ 0x8000000000000000

/-- The value of a double that is a whole number; both zeros give zero. -/
def wholeNumber? (x : Float) : Option Int :=
  if x.isFinite then
    let (num, den) := (Binary.ofFloat x).toFraction
    if num % den = 0 then
      some (if isNegative x then -((num / den : Nat) : Int) else ((num / den : Nat) : Int))
    else none
  else none

example : wholeNumber? (-3.0) = some (-3) ∧ wholeNumber? 0.5 = none ∧ wholeNumber? (-0.0) = some 0 := by
  decide +kernel

end TemplateBar
