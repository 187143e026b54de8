import TemplateBar.Json.Read

/-!
# The four written forms of a TOML string

A string stands between single or double quotes, on one line or as a block between threefold
quotes. Double quotes allow escapes. `StringForm.read` takes the text behind the opening quotes,
`StringForm.written` writes a string in a form, and `StringForm.best` is the plainest form that
can hold it.
-/
namespace TemplateBar.Toml

/-- Characters that stand for themselves in strings and comments: all but controls, and the tab. -/
def isPlain (c : Char) : Bool := c = '\t' || (0x20 ≤ c.toNat && c.toNat ≠ 0x7F)

structure StringForm where
  hasEscapes : Bool
  isBlock : Bool
  deriving DecidableEq, Repr

namespace StringForm

def basic : StringForm := ⟨true, false⟩
def literal : StringForm := ⟨false, false⟩
def basicBlock : StringForm := ⟨true, true⟩
def literalBlock : StringForm := ⟨false, true⟩

def quote (f : StringForm) : Char := if f.hasEscapes then '"' else '\''

/-- The quotes at either end. -/
def delimiter (f : StringForm) : List Char := List.replicate (if f.isBlock then 3 else 1) f.quote

/-! ## Reading -/

/-- The escapes of one letter. -/
def letterEscapes : List (Char × Char) :=
  [('b', '\x08'), ('t', '\t'), ('n', '\n'), ('f', '\x0c'), ('r', '\r'), ('"', '"'), ('\\', '\\')]

/-- The character that a given number of hexadecimal digits stands for. -/
def codePoint (width : Nat) (cs : List Char) : Option (Char × List Char) := do
  let digits ← (cs.take width).mapM Json.hexValue
  let n := digits.foldl (fun n d => n * 16 + d) 0
  if digits.length = width ∧ n.isValidChar then some (Char.ofNat n, cs.drop width) else none

/-- What stands behind a backslash, as the character it means. -/
def escaped : List Char → Option (Char × List Char)
  | 'u' :: cs => codePoint 4 cs
  | 'U' :: cs => codePoint 8 cs
  | c :: cs => (letterEscapes.lookup c).map (·, cs)
  | [] => none

def isSpace (c : Char) : Bool := c = ' ' || c = '\t'

/-- The rest of the text behind a line end. -/
def afterLineEnd : List Char → Option (List Char)
  | '\n' :: cs => some cs
  | '\r' :: '\n' :: cs => some cs
  | _ => none

/-- The text behind blanks and line ends. -/
def skipBlankLines : List Char → List Char
  | ' ' :: cs => skipBlankLines cs
  | '\t' :: cs => skipBlankLines cs
  | '\n' :: cs => skipBlankLines cs
  | '\r' :: '\n' :: cs => skipBlankLines cs
  | cs => cs

/-- The text behind a line end that a backslash takes out, with all blanks up to the next word. -/
def afterJoint (cs : List Char) : Option (List Char) :=
  (afterLineEnd (cs.dropWhile isSpace)).map skipBlankLines

/-- The closing quotes. Up to two more quotes in front of those of a block belong to the text. -/
def close? (f : StringForm) (cs : List Char) : Option (List Char × List Char) :=
  let q := f.quote
  match f.isBlock, cs with
  | false, a :: cs => if a = q then some ([], cs) else none
  | true, a :: b :: c :: cs =>
    if a = q ∧ b = q ∧ c = q then
      match cs with
      | d :: e :: rest =>
        if d = q ∧ e = q then some ([q, q], rest)
        else if d = q then some ([q], e :: rest)
        else some ([], d :: e :: rest)
      | [d] => if d = q then some ([q], []) else some ([], [d])
      | [] => some ([], [])
    else none
  | _, _ => none

/-- The characters up to the closing quotes; `fuel` bounds their number. -/
def body (f : StringForm) : Nat → List Char → Option (List Char × List Char)
  | 0, _ => none
  | fuel + 1, cs =>
    match f.close? cs with
    | some r => some r
    | none =>
      match cs with
      | [] => none
      | c :: rest =>
        if f.hasEscapes ∧ c = '\\' then
          match if f.isBlock then afterJoint rest else none with
          | some rest => body f fuel rest
          | none => do
            let (c, rest) ← escaped rest
            let (cs, rest) ← body f fuel rest
            return (c :: cs, rest)
        else if isPlain c then do
          let (cs, rest) ← body f fuel rest
          return (c :: cs, rest)
        else if f.isBlock then do
          let rest ← afterLineEnd (c :: rest)
          let (cs, rest) ← body f fuel rest
          return ('\n' :: cs, rest)
        else none

/-- The string behind its opening quotes; a line end right behind those of a block is left out. -/
def read (f : StringForm) (cs : List Char) : Option (String × List Char) :=
  let cs := if f.isBlock then (afterLineEnd cs).getD cs else cs
  (f.body (cs.length + 1) cs).map fun r => (String.ofList r.1, r.2)

end StringForm

/-- A string in any form. -/
def readString : List Char → Option (String × List Char)
  | '"' :: '"' :: '"' :: cs => StringForm.basicBlock.read cs
  | '"' :: cs => StringForm.basic.read cs
  | '\'' :: '\'' :: '\'' :: cs => StringForm.literalBlock.read cs
  | '\'' :: cs => StringForm.literal.read cs
  | _ => none

/-- A string on one line. -/
def readLineString : List Char → Option (String × List Char)
  | '"' :: cs => StringForm.basic.read cs
  | '\'' :: cs => StringForm.literal.read cs
  | _ => none

namespace StringForm

/-! ## Writing -/

/-- Control characters that no form without an escape can hold. -/
def needsEscape (c : Char) : Bool := c ≠ '\n' && !isPlain c

/-- The longest run of a character. -/
def longestRun (q : Char) (cs : List Char) : Nat :=
  (cs.foldl (fun (r : Nat × Nat) c =>
    if c = q then (r.1 + 1, max r.2 (r.1 + 1)) else (0, r.2)) (0, 0)).2

/-- The form can hold the text without an escape. -/
def holds (f : StringForm) (cs : List Char) : Bool :=
  !cs.any needsEscape && (!f.hasEscapes || !cs.contains '\\') &&
    (f.isBlock || !cs.contains '\n') && longestRun f.quote cs ≤ (if f.isBlock then 2 else 0)

/-- The first form that holds the text without an escape, else one with escapes. -/
def best (cs : List Char) : StringForm :=
  match [basic, literal, basicBlock, literalBlock].find? (·.holds cs) with
  | some f => f
  | none => if cs.contains '\n' then basicBlock else basic

def upperHex (n : Nat) : Char := if n < 10 then Char.ofNat (48 + n) else Char.ofNat (55 + n)

/-- The escape of a character that does not stand for itself. -/
def escapeOf (c : Char) : List Char :=
  if c = '\x08' then ['\\', 'b']
  else if c = '\t' then ['\\', 't']
  else if c = '\n' then ['\\', 'n']
  else if c = '\x0c' then ['\\', 'f']
  else if c = '\r' then ['\\', 'r']
  else if c = '"' then ['\\', '"']
  else if c = '\\' then ['\\', '\\']
  else ['\\', 'u', '0', '0', upperHex (c.toNat / 16), upperHex (c.toNat % 16)]

/-- The text with its escapes, behind `run` quotes in a row. On one line every quote is escaped,
in a block every third of a row. -/
def withEscapes (f : StringForm) : Nat → List Char → List Char
  | _, [] => []
  | run, c :: cs =>
    if c = '"' then
      if f.isBlock ∧ run < 2 then c :: withEscapes f (run + 1) cs
      else escapeOf c ++ withEscapes f 0 cs
    else if c = '\t' ∨ c = '\\' ∨ (needsEscape c ∨ c = '\n' ∧ ¬ f.isBlock) then
      escapeOf c ++ withEscapes f 0 cs
    else c :: withEscapes f 0 cs

/-- The text between its quotes. A block of several lines starts on a line of its own. -/
def written (f : StringForm) (cs : List Char) : List Char :=
  f.delimiter ++ (if f.isBlock ∧ cs.contains '\n' then ['\n'] else []) ++
    (if f.hasEscapes then f.withEscapes 0 cs else cs) ++ f.delimiter

end StringForm

def writtenString (s : String) : List Char := (StringForm.best s.toList).written s.toList

end TemplateBar.Toml
