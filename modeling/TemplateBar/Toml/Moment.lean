import TemplateBar.Decimal.Basic
import TemplateBar.Json.Basic
import TemplateBar.Text.Word

/-!
# Dates and times of TOML documents

A moment is a date, a time, or both with or without an offset. It is read into its standard text:
a `T` between date and time, a fraction of at most nine digits without closing zeros, and `Z` or
hours and minutes for the offset.
-/
namespace TemplateBar.Toml

open Text (isAsciiDigit)

namespace Moment

/-- A number of exactly so many digits. -/
def number (width : Nat) (cs : List Char) : Option (Nat × List Char) :=
  let ds := cs.take width
  if ds.length = width ∧ ds.all isAsciiDigit then some (Decimal.natOfDigits ds, cs.drop width)
  else none

/-- A number of two digits in a range. -/
def numberIn (low high : Nat) (cs : List Char) : Option (Nat × List Char) :=
  (number 2 cs).filter fun r => low ≤ r.1 && r.1 ≤ high

def char (c : Char) : List Char → Option (List Char)
  | d :: cs => if c = d then some cs else none
  | [] => none

def isLeapYear (y : Nat) : Bool := y % 4 = 0 && (y % 100 ≠ 0 || y % 400 = 0)

def daysInMonth (year month : Nat) : Nat :=
  if month = 2 then if isLeapYear year then 29 else 28
  else if month ∈ [4, 6, 9, 11] then 30
  else 31

/-- A number with leading zeros up to a width. -/
def padded (width n : Nat) : List Char :=
  let ds := Decimal.digitsOfNat n
  List.replicate (width - ds.length) '0' ++ ds

def date (cs : List Char) : Option (List Char × List Char) := do
  let (year, cs) ← number 4 cs
  let cs ← char '-' cs
  let (month, cs) ← numberIn 1 12 cs
  let cs ← char '-' cs
  let (day, cs) ← numberIn 1 (daysInMonth year month) cs
  return (padded 4 year ++ '-' :: padded 2 month ++ '-' :: padded 2 day, cs)

/-- A fraction of a second behind its point, or nothing. -/
def fraction : List Char → List Char × List Char
  | '.' :: cs =>
    match cs.takeWhile isAsciiDigit with
    | [] => ([], '.' :: cs)
    | ds =>
      let kept := ((ds.take 9).reverse.dropWhile (· = '0')).reverse
      (if kept = [] then [] else '.' :: kept, cs.dropWhile isAsciiDigit)
  | cs => ([], cs)

def time (cs : List Char) : Option (List Char × List Char) := do
  let (hour, cs) ← numberIn 0 23 cs
  let cs ← char ':' cs
  let (minute, cs) ← numberIn 0 59 cs
  let cs ← char ':' cs
  let (second, cs) ← numberIn 0 60 cs
  let (fraction, cs) := fraction cs
  return (padded 2 hour ++ ':' :: padded 2 minute ++ ':' :: padded 2 second ++ fraction, cs)

/-- An offset, or nothing; no offset at all is written as a positive one. -/
def offset (cs : List Char) : List Char × List Char :=
  match cs with
  | [] => ([], [])
  | c :: rest =>
    if c = 'Z' ∨ c = 'z' then (['Z'], rest)
    else if c = '+' ∨ c = '-' then
      let hoursAndMinutes := do
        let (hour, rest) ← numberIn 0 23 rest
        let rest ← char ':' rest
        let (minute, rest) ← numberIn 0 59 rest
        let c := if hour = 0 ∧ minute = 0 then '+' else c
        return (c :: padded 2 hour ++ ':' :: padded 2 minute, rest)
      hoursAndMinutes.getD ([], cs)
    else ([], cs)

/-- A date, with the time behind it if there is one. -/
def dateAndTime (cs : List Char) : Option (List Char × List Char) := do
  let (day, cs) ← date cs
  match cs with
  | c :: rest =>
    if c = 'T' ∨ c = 't' ∨ c = ' ' then
      match time rest with
      | some (clock, rest) =>
        let (zone, rest) := offset rest
        return (day ++ 'T' :: clock ++ zone, rest)
      | none => return (day, cs)
    else return (day, cs)
  | [] => return (day, cs)

/-- The standard text of a moment. -/
def text (cs : List Char) : Option (List Char × List Char) := (dateAndTime cs).or (time cs)

/-- The one field of the object that stands for a moment. -/
def fieldName : String := "$__toml_private_datetime"

end Moment

def readMoment (cs : List Char) : Option (Json × List Char) :=
  (Moment.text cs).map fun r => (.object [(Moment.fieldName, .string (String.ofList r.1))], r.2)

end TemplateBar.Toml
