import TemplateBar.Toml.StringForm
import TemplateBar.Text.Word

/-!
# Keys of TOML documents

A key stands bare if it has only letters, digits, dashes and underscores, else between quotes on
one line. Keys joined by dots are a path.
-/
namespace TemplateBar.Toml

open Text (isAsciiAlpha isAsciiDigit)

def isBare (c : Char) : Bool := isAsciiAlpha c || isAsciiDigit c || c = '-' || c = '_'

def skipSpace (cs : List Char) : List Char := cs.dropWhile StringForm.isSpace

/-- One key, with blanks around it. -/
def readKey (cs : List Char) : Option (String × List Char) := do
  let cs := skipSpace cs
  let (key, cs) ← (readLineString cs).or <|
    match cs.takeWhile isBare with
    | [] => none
    | word => some (String.ofList word, cs.dropWhile isBare)
  return (key, skipSpace cs)

/-- The keys behind the first one of a path; `fuel` bounds their number. -/
def pathRest : Nat → List Char → Option (List String × List Char)
  | fuel + 1, '.' :: cs => do
    let (key, cs) ← readKey cs
    let (keys, cs) ← pathRest fuel cs
    return (key :: keys, cs)
  | _, cs => some ([], cs)

/-- How many keys a path may have. -/
def maxPath : Nat := 79

/-- A path as its first keys and its last one. -/
structure Path where
  parents : List String
  key : String
  deriving DecidableEq, Repr

def Path.keys (p : Path) : List String := p.parents ++ [p.key]

def Path.ofKeys : String → List String → Path
  | key, [] => ⟨[], key⟩
  | first, key :: keys =>
    let rest := Path.ofKeys key keys
    ⟨first :: rest.parents, rest.key⟩

def readPath (cs : List Char) : Option (Path × List Char) := do
  let (first, cs) ← readKey cs
  let (keys, cs) ← pathRest maxPath cs
  if keys.length < maxPath then some (Path.ofKeys first keys, cs) else none

/-- Between double quotes, or between single quotes if only they save an escape. -/
def writtenKey (key : String) : List Char :=
  let cs := key.toList
  if !cs.isEmpty && cs.all isBare then cs
  else if !StringForm.basic.holds cs && StringForm.literal.holds cs then StringForm.literal.written cs
  else StringForm.basic.written cs

def Path.written (p : Path) : List Char :=
  ['.'].intercalate (p.keys.map writtenKey)

end TemplateBar.Toml
