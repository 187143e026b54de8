import TemplateBar.Decimal.Basic
import TemplateBar.Json.Read

/-!
# Numbers of TOML documents

Whole numbers have 64 bits with their sign and are written in base ten, or without a sign in base
sixteen, eight or two. Numbers with a point or an exponent are doubles. Single underscores may
stand between digits.
-/
namespace TemplateBar.Toml

open Text (isAsciiDigit)

/-- A run of digits, underscores between them left out. -/
def digitsRest (isDigit : Char → Bool) : List Char → List Char × List Char
  | '_' :: d :: cs =>
    if isDigit d then
      let (ds, rest) := digitsRest isDigit cs
      (d :: ds, rest)
    else ([], '_' :: d :: cs)
  | c :: cs =>
    if isDigit c then
      let (ds, rest) := digitsRest isDigit cs
      (c :: ds, rest)
    else ([], c :: cs)
  | [] => ([], [])

/-- At least one digit. -/
def digits (isDigit : Char → Bool) : List Char → Option (List Char × List Char)
  | c :: cs =>
    if isDigit c then
      let (ds, rest) := digitsRest isDigit cs
      some (c :: ds, rest)
    else none
  | [] => none

/-- A sign or none; whether it is the negative one. -/
def sign : List Char → Bool × List Char
  | '-' :: cs => (true, cs)
  | '+' :: cs => (false, cs)
  | cs => (false, cs)

/-- Decimal digits that do not start with a zero, or a single zero. -/
def wholePart : List Char → Option (List Char × List Char)
  | '0' :: cs => some (['0'], cs)
  | cs => digits isAsciiDigit cs

def isHexDigit (c : Char) : Bool := (Json.hexValue c).isSome

def isOctalDigit (c : Char) : Bool := '0' ≤ c && c ≤ '7'

def isBinaryDigit (c : Char) : Bool := c = '0' || c = '1'

def natInBase (base : Nat) (ds : List Char) : Nat :=
  ds.foldl (fun n d => n * base + (Json.hexValue d).getD 0) 0

/-- Whole numbers that a document can hold. -/
def fitsWord (i : Int) : Bool := -0x8000000000000000 ≤ i && i < 0x8000000000000000

def wordValue (i : Int) (rest : List Char) : Option (Json × List Char) :=
  if fitsWord i then some (.int i, rest) else none

def readWhole (cs : List Char) : Option (Json × List Char) :=
  match cs with
  | '0' :: 'x' :: cs => (digits isHexDigit cs).bind fun r => wordValue (natInBase 16 r.1) r.2
  | '0' :: 'o' :: cs => (digits isOctalDigit cs).bind fun r => wordValue (natInBase 8 r.1) r.2
  | '0' :: 'b' :: cs => (digits isBinaryDigit cs).bind fun r => wordValue (natInBase 2 r.1) r.2
  | cs =>
    let (negative, cs) := sign cs
    (wholePart cs).bind fun r =>
      let n : Int := Decimal.natOfDigits r.1
      wordValue (if negative then -n else n) r.2

/-- A point with digits behind it, or nothing. -/
def fractionPart : List Char → List Char × List Char
  | '.' :: cs => (digits isAsciiDigit cs).getD ([], '.' :: cs)
  | cs => ([], cs)

/-- An exponent mark with a number behind it, or nothing. -/
def exponentPart : List Char → Option Int × List Char
  | c :: cs =>
    if c = 'e' ∨ c = 'E' then
      let (negative, ds) := sign cs
      match digits isAsciiDigit ds with
      | some (ds, rest) =>
        let n : Int := Decimal.natOfDigits ds
        (some (if negative then -n else n), rest)
      | none => (none, c :: cs)
    else (none, c :: cs)
  | [] => (none, [])

/-- A number with a fraction, an exponent or both. It may not exceed all doubles. -/
def readDouble (cs : List Char) : Option (Json × List Char) := do
  let (negative, cs) := sign cs
  match cs with
  | 'i' :: 'n' :: 'f' :: cs =>
    return (.float (if negative then -Decimal.infinity else Decimal.infinity), cs)
  | 'n' :: 'a' :: 'n' :: cs => return (.float Decimal.notANumber, cs)
  | _ =>
    let (whole, cs) ← wholePart cs
    let (fraction, cs) := fractionPart cs
    let (exponent, cs) := exponentPart cs
    if fraction = [] ∧ exponent = none then none
    else
      let d : Decimal :=
        ⟨Decimal.natOfDigits (whole ++ fraction), exponent.getD 0 - fraction.length⟩
      let x := if negative then -d.toFloat else d.toFloat
      if x == Decimal.infinity then none else some (.float x, cs)

end TemplateBar.Toml
