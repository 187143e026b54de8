import TemplateBar.Toml.Moment
import TemplateBar.Toml.Number
import TemplateBar.Toml.Table

/-!
# Values of TOML documents

Strings, numbers, moments and truth values, arrays, which may run over several lines and hold
comments, and inline tables, which may not. A value is read into a document tree.
-/
namespace TemplateBar.Toml

/-- What may stand between the items of an array: blanks, line ends and comments. What does not
fit in is left for the reader of the next item, which takes no such character. -/
def skipGap (inComment : Bool) : List Char → List Char
  | '\n' :: cs => skipGap false cs
  | '\r' :: '\n' :: cs => skipGap false cs
  | c :: cs =>
    if inComment then if isPlain c then skipGap true cs else c :: cs
    else if StringForm.isSpace c then skipGap false cs
    else if c = '#' then skipGap true cs
    else c :: cs
  | [] => []

def readTruth (cs : List Char) : Option (Json × List Char) :=
  ((Json.afterWord ['t', 'r', 'u', 'e'] cs).map (.bool true, ·)).or
    ((Json.afterWord ['f', 'a', 'l', 's', 'e'] cs).map (.bool false, ·))

/-- A value without parts. -/
def readScalar (cs : List Char) : Option (Json × List Char) :=
  ((readString cs).map fun r => (.string r.1, r.2)).or <|
    (readTruth cs).or <| (readMoment cs).or <| (readDouble cs).or (readWhole cs)

/-- A path with its value, which `value` reads. -/
def readEntry (value : List Char → Option (Json × List Char)) (cs : List Char) :
    Option ((Path × Json) × List Char) := do
  let (path, cs) ← readPath cs
  let cs ← Json.afterWord ['='] cs
  let (j, cs) ← value (skipSpace cs)
  return ((path, j), skipSpace cs)

/-- Items up to the closing bracket, with a comma behind the last one or not. -/
def itemsRest (value : List Char → Option (Json × List Char)) :
    Nat → List Char → Option (List Json × List Char)
  | 0, _ => none
  | fuel + 1, cs =>
    match skipGap false cs with
    | ']' :: cs => some ([], cs)
    | cs => do
      let (item, cs) ← value cs
      match skipGap false cs with
      | ',' :: cs =>
        let (items, cs) ← itemsRest value fuel cs
        return (item :: items, cs)
      | ']' :: cs => return ([item], cs)
      | _ => none

/-- Entries of an inline table up to the closing brace. -/
def entriesRest (value : List Char → Option (Json × List Char)) :
    Nat → List Char → Option (List (Path × Json) × List Char)
  | 0, _ => none
  | fuel + 1, cs => do
    let (entry, cs) ← readEntry value cs
    match cs with
    | ',' :: cs =>
      let (entries, cs) ← entriesRest value fuel cs
      return (entry :: entries, cs)
    | '\x7d' :: cs => return ([entry], cs)
    | _ => none

/-- How deep arrays and inline tables may nest. -/
def maxDepth : Nat := 79

/-- One value and the rest of the text. -/
def readValue : Nat → List Char → Option (Json × List Char)
  | depth, cs =>
    match cs with
    | '[' :: cs =>
      match depth with
      | 0 => none
      | depth + 1 =>
        (itemsRest (readValue depth) (cs.length + 1) cs).map fun r => (.array r.1, r.2)
    | '\x7b' :: cs =>
      match depth with
      | 0 => none
      | depth + 1 =>
        match skipSpace cs with
        | '\x7d' :: cs => some (.object [], cs)
        | cs => do
          let (entries, cs) ← entriesRest (readValue depth) (cs.length + 1) cs
          let fields ← Fields.ofEntries? entries
          return (fields.toJson, cs)
    | cs => readScalar cs

end TemplateBar.Toml
