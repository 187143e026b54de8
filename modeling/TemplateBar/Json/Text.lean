import TemplateBar.Json.Basic
import TemplateBar.Decimal.Layout

/-!
# Written documents

`Json.text` writes a document without spaces, `Json.prettyText` with one field or item a line and
two spaces for each level.
-/
namespace TemplateBar.Json

def hexPair (n : Nat) : List Char := [Nat.digitChar (n / 16), Nat.digitChar (n % 16)]

def escapeChar (c : Char) : List Char :=
  if c = '"' then ['\\', '"']
  else if c = '\\' then ['\\', '\\']
  else if c = '\x08' then ['\\', 'b']
  else if c = '\x0c' then ['\\', 'f']
  else if c = '\n' then ['\\', 'n']
  else if c = '\r' then ['\\', 'r']
  else if c = '\t' then ['\\', 't']
  else if c.toNat < 0x20 then '\\' :: 'u' :: '0' :: '0' :: hexPair c.toNat
  else [c]

def stringChars (s : String) : List Char := '"' :: (s.toList.flatMap escapeChar ++ ['"'])

/-- Doubles that are no numbers are written as nothing. -/
def floatChars (x : Float) : List Char :=
  if x.isFinite then Decimal.scientificChars x else ['n', 'u', 'l', 'l']

mutual

def chars : Json → List Char
  | null => ['n', 'u', 'l', 'l']
  | bool true => ['t', 'r', 'u', 'e']
  | bool false => ['f', 'a', 'l', 's', 'e']
  | int i => Decimal.digitsOfInt i
  | float x => floatChars x
  | string s => stringChars s
  | array [] => ['[', ']']
  | array (item :: items) => '[' :: (chars item ++ moreItems items)
  | object [] => ['\x7b', '\x7d']
  | object ((key, value) :: fields) =>
    '\x7b' :: (stringChars key ++ ':' :: (chars value ++ moreFields fields))

/-- The items after the first, and the closing bracket. -/
def moreItems : List Json → List Char
  | [] => [']']
  | item :: items => ',' :: (chars item ++ moreItems items)

/-- The fields after the first, and the closing brace. -/
def moreFields : List (String × Json) → List Char
  | [] => ['\x7d']
  | (key, value) :: fields =>
    ',' :: (stringChars key ++ ':' :: (chars value ++ moreFields fields))

end

/-- The document on one line without spaces. -/
def text (j : Json) : String := String.ofList (chars j)

/-- A new line and two spaces for each level. -/
def newline (level : Nat) : List Char := '\n' :: List.replicate (2 * level) ' '

mutual

def prettyChars (level : Nat) : Json → List Char
  | array (item :: items) =>
    '[' :: (newline (level + 1) ++ prettyChars (level + 1) item ++ moreItemLines level items)
  | object ((key, value) :: fields) =>
    '\x7b' :: (newline (level + 1) ++ stringChars key ++ ':' :: ' ' ::
      (prettyChars (level + 1) value ++ moreFieldLines level fields))
  | array [] => ['[', ']']
  | object [] => ['\x7b', '\x7d']
  | null => chars null
  | bool b => chars (bool b)
  | int i => chars (int i)
  | float x => chars (float x)
  | string s => chars (string s)

def moreItemLines (level : Nat) : List Json → List Char
  | [] => newline level ++ [']']
  | item :: items =>
    ',' :: (newline (level + 1) ++ prettyChars (level + 1) item ++ moreItemLines level items)

def moreFieldLines (level : Nat) : List (String × Json) → List Char
  | [] => newline level ++ ['\x7d']
  | (key, value) :: fields =>
    ',' :: (newline (level + 1) ++ stringChars key ++ ':' :: ' ' ::
      (prettyChars (level + 1) value ++ moreFieldLines level fields))

end

def prettyText (j : Json) : String := String.ofList (prettyChars 0 j)

example : text (object [("a", array [int 1, null]), ("b", string "\n")]) =
    "\x7b\"a\":[1,null],\"b\":\"\\n\"\x7d" := by decide +kernel

end TemplateBar.Json
