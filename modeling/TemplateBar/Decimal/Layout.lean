import TemplateBar.Decimal.Shortest

/-!
# Written numbers

Two ways to write a double. `plainText` never uses an exponent; it is how expressions and messages
show numbers. `scientificText` keeps a point in whole numbers and changes to an exponent outside a
range of magnitudes; it is how documents hold numbers that are not whole.
-/
namespace TemplateBar.Decimal

/-- Digits and point of a decimal, without exponent. -/
def plainDigits (d : Decimal) : List Char :=
  let ds := digitsOfNat d.digits
  if 0 ≤ d.exponent then ds ++ List.replicate d.exponent.toNat '0'
  else
    let places := (-d.exponent).toNat
    if ds.length ≤ places then
      '0' :: '.' :: (List.replicate (places - ds.length) '0' ++ ds)
    else ds.take (ds.length - places) ++ '.' :: ds.drop (ds.length - places)

/-- Sign and shortest digits without exponent. -/
def plainChars (x : Float) : List Char :=
  if x.isNaN then ['N', 'a', 'N']
  else
    let sign := if isNegative x then ['-'] else []
    if x.isInf then sign ++ ['i', 'n', 'f']
    else if x == 0 then sign ++ ['0']
    else sign ++ plainDigits (shortest .upward (Binary.ofFloat x))

/-- How messages show a number. -/
def plainText (x : Float) : String := String.ofList (plainChars x)

/-- Whole doubles below this magnitude are shown with all their digits. -/
def wholeLimit : Nat := Nat.pow 10 21

/-- How expressions show a number: whole numbers below the limit exactly, all others by their
shortest digits. -/
def displayText (x : Float) : String :=
  if x.isNaN then "NaN"
  else if x.isInf then (if isNegative x then "-Infinity" else "Infinity")
  else
    match wholeNumber? x with
    | some i => if i.natAbs < wholeLimit then String.ofList (digitsOfInt i) else plainText x
    | none => plainText x

/-- Shortest digits with a point, and with an exponent unless the first digit stands for a power
of ten from -5 to 15. -/
def scientificChars (x : Float) : List Char :=
  let sign := if isNegative x then ['-'] else []
  if x == 0 then sign ++ ['0', '.', '0']
  else
    let d := shortest .toEven (Binary.ofFloat x)
    let ds := digitsOfNat d.digits
    let lead : Int := d.exponent + ds.length - 1
    sign ++
      if -5 ≤ lead ∧ lead ≤ 15 then
        plainDigits d ++ (if 0 ≤ d.exponent then ['.', '0'] else [])
      else
        let fraction := if ds.length = 1 then [] else '.' :: ds.drop 1
        ds.take 1 ++ fraction ++ ['e', if lead < 0 then '-' else '+'] ++ digitsOfNat lead.natAbs

example : displayText 1e20 = "100000000000000000000" := by decide +kernel
example : plainText 1.5e-7 = "0.00000015" := by decide +kernel
example : String.ofList (scientificChars 1e16) = "1e+16" := by decide +kernel
example : String.ofList (scientificChars 0.00001) = "0.00001" := by decide +kernel

end TemplateBar.Decimal
