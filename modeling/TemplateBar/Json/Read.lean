import TemplateBar.Json.Basic
import TemplateBar.Decimal.Basic
import TemplateBar.Text.Word

/-!
# Reading documents

`Json.read` takes a whole text for one document: blanks are allowed around every part, a number
must be in the range of doubles, a string holds no bare control characters and no half of a
surrogate pair, the last field under a key wins, and arrays and objects nest at most `depth` levels.
-/
namespace TemplateBar.Json

open Text (isAsciiDigit)

def isSpace (c : Char) : Bool := c == ' ' || c == '\n' || c == '\t' || c == '\r'

def skipSpace (cs : List Char) : List Char := cs.dropWhile isSpace

/-- The rest of the text after a fixed word. -/
def afterWord : List Char → List Char → Option (List Char)
  | [], cs => some cs
  | w :: ws, c :: cs => if w = c then afterWord ws cs else none
  | _ :: _, [] => none

/-- A non-empty run of digits and the rest. -/
def digitRun (cs : List Char) : Option (List Char × List Char) :=
  match cs.takeWhile isAsciiDigit with
  | [] => none
  | ds => some (ds, cs.dropWhile isAsciiDigit)

/-- The whole part of a number: a single zero, or digits that do not start with one. -/
def wholePart (cs : List Char) : Option (List Char × List Char) :=
  match digitRun cs with
  | some ('0' :: _ :: _, _) => none
  | r => r

/-- The digits after a point, if there is one. -/
def fractionPart : List Char → Option (List Char × List Char)
  | '.' :: cs => digitRun cs
  | cs => some ([], cs)

/-- The exponent, if there is one. -/
def exponentPart : List Char → Option (Option Int × List Char)
  | c :: cs =>
    if c = 'e' ∨ c = 'E' then
      match cs with
      | '-' :: cs => (digitRun cs).map fun r => (some (-(Decimal.natOfDigits r.1 : Int)), r.2)
      | '+' :: cs => (digitRun cs).map fun r => (some (Decimal.natOfDigits r.1 : Int), r.2)
      | cs => (digitRun cs).map fun r => (some (Decimal.natOfDigits r.1 : Int), r.2)
    else some (none, c :: cs)
  | [] => some (none, [])

/-- Digits read into a number while it stays below `2 ^ 64`, and the digits behind those. -/
def leadingDigits : Nat → List Char → Nat × List Char
  | n, [] => (n, [])
  | n, d :: ds =>
    let m := 10 * n + (d.toNat - 48)
    if m < 0x10000000000000000 then leadingDigits m ds else (n, d :: ds)

/-- The double nearest to a power of ten. -/
def powerOfTen (n : Nat) : Float := Float.ofScientific 1 false n

/-- A double times a power of ten, rounded once for every factor of at most `10 ^ 308`. After
`steps` divisions nothing is left of a number of 64 bits. -/
def scaled : Nat → Float → Int → Option Float
  | 0, x, _ => some x
  | steps + 1, x, exponent =>
    if exponent.natAbs ≤ 308 then
      let y := if exponent < 0 then x / powerOfTen exponent.natAbs else x * powerOfTen exponent.natAbs
      if y.isFinite then some y else none
    else if x == 0 then some x
    else if 0 < exponent then none
    else scaled steps (x / powerOfTen 308) (exponent + 308)

/-- The value of a number. Whole numbers stay whole while they fit; a negative zero is a double.
A double is its leading digits, as many as fit 64 bits, times a power of ten. -/
def numberValue (negative : Bool) (whole fraction : List Char) (exponent : Option Int) :
    Option Json :=
  let signed := fun x : Float => if negative then -x else x
  match leadingDigits 0 whole, fraction, exponent with
  | (n, []), [], none =>
    let i : Int := if negative then -(n : Int) else n
    if negative && n == 0 then some (float (-0.0))
    else if fitsWord i then some (int i)
    else some (float (signed (Float.ofNat n)))
  | (n, left), fraction, exponent =>
    let (m, rest) := leadingDigits n fraction
    let shift : Int := (left.length : Int) - (fraction.length - rest.length)
    (scaled 4 (Float.ofNat m) (exponent.getD 0 + shift)).map fun x => float (signed x)

def number (negative : Bool) (cs : List Char) : Option (Json × List Char) :=
  match wholePart cs with
  | none => none
  | some (whole, cs) =>
    match fractionPart cs with
    | none => none
    | some (fraction, cs) =>
      match exponentPart cs with
      | none => none
      | some (exponent, cs) => (numberValue negative whole fraction exponent).map (·, cs)

def hexValue (c : Char) : Option Nat :=
  if '0' ≤ c ∧ c ≤ '9' then some (c.toNat - 48)
  else if 'a' ≤ c ∧ c ≤ 'f' then some (c.toNat - 87)
  else if 'A' ≤ c ∧ c ≤ 'F' then some (c.toNat - 55)
  else none

/-- Four hexadecimal digits. -/
def hexQuad : List Char → Option (Nat × List Char)
  | a :: b :: c :: d :: rest => do
    let a ← hexValue a
    let b ← hexValue b
    let c ← hexValue c
    let d ← hexValue d
    return (((a * 16 + b) * 16 + c) * 16 + d, rest)
  | _ => none

/-- The character of an escape by code unit, joining the two halves of a surrogate pair. -/
def unicodeEscape (cs : List Char) : Option (Char × List Char) :=
  match hexQuad cs with
  | none => none
  | some (n, rest) =>
    if n < 0xD800 ∨ 0xDFFF < n then some (Char.ofNat n, rest)
    else if 0xDC00 ≤ n then none
    else
      match rest with
      | '\\' :: 'u' :: rest =>
        match hexQuad rest with
        | some (m, rest) =>
          if 0xDC00 ≤ m ∧ m ≤ 0xDFFF then
            some (Char.ofNat (0x10000 + (n - 0xD800) * 0x400 + (m - 0xDC00)), rest)
          else none
        | none => none
      | _ => none

def simpleEscape (c : Char) : Option Char :=
  if c = '"' ∨ c = '\\' ∨ c = '/' then some c
  else if c = 'b' then some '\x08'
  else if c = 'f' then some '\x0c'
  else if c = 'n' then some '\n'
  else if c = 'r' then some '\r'
  else if c = 't' then some '\t'
  else none

/-- The characters of a string up to its closing quote; `fuel` bounds their number. -/
def stringBody : Nat → List Char → List Char → Option (String × List Char)
  | 0, _, _ => none
  | fuel + 1, seen, cs =>
    match cs with
    | [] => none
    | '"' :: rest => some (String.ofList seen.reverse, rest)
    | '\\' :: 'u' :: rest =>
      match unicodeEscape rest with
      | some (c, rest) => stringBody fuel (c :: seen) rest
      | none => none
    | '\\' :: c :: rest =>
      match simpleEscape c with
      | some c => stringBody fuel (c :: seen) rest
      | none => none
    | c :: rest => if c.toNat < 0x20 ∨ c = '\\' then none else stringBody fuel (c :: seen) rest

def stringRest (cs : List Char) : Option (String × List Char) :=
  stringBody (cs.length + 1) [] cs

/-- Items up to the closing bracket, read by `value`; `fuel` bounds their number. -/
def itemsRest (value : List Char → Option (Json × List Char)) :
    Nat → List Json → List Char → Option (Json × List Char)
  | 0, _, _ => none
  | fuel + 1, seen, cs =>
    match value cs with
    | none => none
    | some (item, cs) =>
      match skipSpace cs with
      | ',' :: cs => itemsRest value fuel (item :: seen) cs
      | ']' :: cs => some (array (item :: seen).reverse, cs)
      | _ => none

/-- Fields up to the closing brace. -/
def fieldsRest (value : List Char → Option (Json × List Char)) :
    Nat → Dict Json → List Char → Option (Json × List Char)
  | 0, _, _ => none
  | fuel + 1, seen, cs =>
    match skipSpace cs with
    | '"' :: cs =>
      match stringRest cs with
      | none => none
      | some (key, cs) =>
        match skipSpace cs with
        | ':' :: cs =>
          match value cs with
          | none => none
          | some (item, cs) =>
            match skipSpace cs with
            | ',' :: cs => fieldsRest value fuel (Dict.insert seen key item) cs
            | '\x7d' :: cs => some (ofDict (Dict.insert seen key item), cs)
            | _ => none
        | _ => none
    | _ => none

/-- One value and the rest of the text. -/
def value : Nat → List Char → Option (Json × List Char)
  | depth, cs =>
    match skipSpace cs with
    | '"' :: cs => (stringRest cs).map fun r => (string r.1, r.2)
    | '[' :: cs =>
      match depth with
      | 0 => none
      | depth + 1 =>
        match skipSpace cs with
        | ']' :: cs => some (array [], cs)
        | cs => itemsRest (value depth) (cs.length + 1) [] cs
    | '\x7b' :: cs =>
      match depth with
      | 0 => none
      | depth + 1 =>
        match skipSpace cs with
        | '\x7d' :: cs => some (object [], cs)
        | cs => fieldsRest (value depth) (cs.length + 1) [] cs
    | 'n' :: cs => (afterWord ['u', 'l', 'l'] cs).map (null, ·)
    | 't' :: cs => (afterWord ['r', 'u', 'e'] cs).map (bool true, ·)
    | 'f' :: cs => (afterWord ['a', 'l', 's', 'e'] cs).map (bool false, ·)
    | '-' :: cs => number true cs
    | cs => number false cs

/-- How deep arrays and objects may nest in a text from outside. -/
def maxDepth : Nat := 127

/-- The document that the whole text is. -/
def read (depth : Nat) (s : String) : Option Json :=
  match value depth s.toList with
  | some (j, rest) => if (skipSpace rest).isEmpty then some j else none
  | none => none

end TemplateBar.Json
