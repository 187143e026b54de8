import TemplateBar.Decimal.Basic
import TemplateBar.Text.Word

/-!
# Numbers in texts

`Decimal.readNumber` reads a text that is nothing but a number: a sign or none, then digits with a
point and an exponent where wanted, or one of the words for infinity and for no number, in letters
of either case.
-/
namespace TemplateBar.Decimal

open Text (isAsciiDigit)

def lowerAscii (c : Char) : Char :=
  if 'A' ≤ c ∧ c ≤ 'Z' then Char.ofNat (c.toNat + 32) else c

/-- The special values, by their words in lower case. -/
def specialNumber? (cs : List Char) : Option Float :=
  match cs.map lowerAscii with
  | ['i', 'n', 'f'] => some infinity
  | ['i', 'n', 'f', 'i', 'n', 'i', 't', 'y'] => some infinity
  | ['n', 'a', 'n'] => some notANumber
  | _ => none

/-- The exponent that makes up the whole rest of a text; nothing stands for zero. -/
def exponentRest : List Char → Option Int
  | [] => some 0
  | mark :: cs =>
    if mark = 'e' ∨ mark = 'E' then
      let (negative, ds) :=
        match cs with
        | '-' :: ds => (true, ds)
        | '+' :: ds => (false, ds)
        | ds => (false, ds)
      if ds ≠ [] ∧ ds.all isAsciiDigit then
        some (if negative then -(natOfDigits ds : Int) else natOfDigits ds)
      else none
    else none

/-- A text of digits, with at least one before or after the point. -/
def digitsNumber? (cs : List Char) : Option Float :=
  let whole := cs.takeWhile isAsciiDigit
  let (fraction, rest) :=
    match cs.dropWhile isAsciiDigit with
    | '.' :: cs => (cs.takeWhile isAsciiDigit, cs.dropWhile isAsciiDigit)
    | cs => ([], cs)
  if whole = [] ∧ fraction = [] then none
  else
    match exponentRest rest with
    | some e => some (Decimal.mk (natOfDigits (whole ++ fraction)) (e - fraction.length)).toFloat
    | none => none

def readNumber (cs : List Char) : Option Float :=
  let (negative, cs) :=
    match cs with
    | '-' :: cs => (true, cs)
    | '+' :: cs => (false, cs)
    | cs => (false, cs)
  ((specialNumber? cs).or (digitsNumber? cs)).map fun x => if negative then -x else x

end TemplateBar.Decimal
