import TemplateBar.Decimal.Basic

/-!
# The shortest decimal of a double

Among the decimals that read back to a given finite double, `shortest` selects one with the fewest
digits, and of two such neighbours the nearer. An exact tie between them is settled by a `Tie`.
-/
namespace TemplateBar

/-- Which of two equally near decimals of the same length is written. -/
inductive Tie where
  | toEven
  | upward
  deriving DecidableEq, Repr

namespace Decimal

/-- Compare `a * 10 ^ i` with `n * 2 ^ j`. -/
def compareScaled (a : Nat) (i : Int) (n : Nat) (j : Int) : Ordering :=
  compare (a * Nat.pow 10 i.toNat * Nat.pow 2 (-j).toNat)
    (n * Nat.pow 2 j.toNat * Nat.pow 10 (-i).toNat)

/-- The decimal lies among the reals that round to `b`; the ends of that interval belong to it
when the mantissa is even. -/
def readsBack (b : Binary) (d : Decimal) : Bool :=
  let low := if b.narrowBelow then 4 * b.mantissa - 1 else 4 * b.mantissa - 2
  let high := 4 * b.mantissa + 2
  let closed := b.mantissa % 2 == 0
  let atLow := compareScaled d.digits d.exponent low (b.exponent - 2)
  let atHigh := compareScaled d.digits d.exponent high (b.exponent - 2)
  (atLow == .gt || (closed && atLow == .eq)) && (atHigh == .lt || (closed && atHigh == .eq))

/-- The least `k` with `b < 10 ^ k`, found from the binary logarithm. -/
def scale (b : Binary) : Int :=
  let log2 : Int := (b.mantissa.log2 : Int) + b.exponent
  let guess := log2 * 30103 / 100000
  ([guess - 1, guess, guess + 1].find? fun k =>
    compareScaled 1 k b.mantissa b.exponent == .gt).getD (guess + 2)

/-- The value of `b` in units of `10 ^ exponent`, rounded down. -/
def floorAt (b : Binary) (exponent : Int) : Nat :=
  (b.mantissa * Nat.pow 2 b.exponent.toNat * Nat.pow 10 (-exponent).toNat) /
    (Nat.pow 2 (-b.exponent).toNat * Nat.pow 10 exponent.toNat)

/-- Of the two neighbours of `b` on one grid, those that read back, the nearer one first. -/
def nearestOnGrid (tie : Tie) (b : Binary) (exponent : Int) : Option Decimal :=
  let n := floorAt b exponent
  let below : Decimal := ⟨n, exponent⟩
  let above : Decimal := ⟨n + 1, exponent⟩
  match readsBack b below, readsBack b above with
  | true, false => some below
  | false, true => some above
  | false, false => none
  | true, true =>
    match compareScaled (2 * n + 1) exponent (2 * b.mantissa) b.exponent with
    | .gt => some below
    | .lt => some above
    | .eq =>
      match tie with
      | .upward => some above
      | .toEven => some (if n % 2 = 0 then below else above)

/-- Trailing zeros move into the exponent; `fuel` bounds their number. -/
def stripZeros : Nat → Decimal → Decimal
  | 0, d => d
  | fuel + 1, d =>
    if d.digits ≠ 0 ∧ d.digits % 10 = 0 then stripZeros fuel ⟨d.digits / 10, d.exponent + 1⟩
    else d

/-- The exact value of `b` as a decimal. -/
def exact (b : Binary) : Decimal :=
  ⟨b.mantissa * Nat.pow 2 b.exponent.toNat * Nat.pow 5 (-b.exponent).toNat, min b.exponent 0⟩

/-- The decimal with the fewest digits that reads back to the positive value `b`. -/
def shortest (tie : Tie) (b : Binary) : Decimal :=
  let k := scale b
  let found := (List.range 17).findSome? fun n => nearestOnGrid tie b (k - (n + 1 : Nat))
  stripZeros 20 (found.getD (exact b))

example : shortest .toEven (Binary.ofFloat 0.1) = ⟨1, -1⟩ := by decide +kernel
example : shortest .toEven (Binary.ofFloat 5e-324) = ⟨5, -324⟩ := by decide +kernel
example : (shortest .toEven (Binary.ofFloat 2.98023223876953125e-8)).digits = 29802322387695312 := by
  decide +kernel
example : (shortest .upward (Binary.ofFloat 2.98023223876953125e-8)).digits = 29802322387695313 := by
  decide +kernel

end Decimal
end TemplateBar
