import TemplateBar.Toml.Value

/-!
# TOML documents

A document is a row of statements: entries, headers of tables and headers of tables in a list.
Headers say where the entries behind them go. `Toml.statements` reads the statements of a text,
`Fields.ofStatements?` gathers them in one table, and `Toml.written` writes them down.
-/
namespace TemplateBar.Toml

inductive Statement where
  | entry (path : Path) (value : Json)
  | table (path : Path)
  | listItem (path : Path)
  deriving Repr

/-! ## The table of a document -/

/-- The table so far, and the path of the header whose entries are being read. -/
structure Draft where
  fields : Fields
  place : List String

namespace Draft

def add (d : Draft) : Statement → Option Draft
  | .entry path value =>
    (Fields.descend false (Fields.addEntry path value) d.place .header d.fields).map
      fun fields => ⟨fields, d.place⟩
  | .table path => (Fields.addTable path d.fields).map fun fields => ⟨fields, path.keys⟩
  | .listItem path => (Fields.addToList path d.fields).map fun fields => ⟨fields, path.keys⟩

end Draft

def Fields.ofStatements? (statements : List Statement) : Option Fields :=
  (statements.foldlM Draft.add ⟨[], []⟩).map (·.fields)

/-! ## Reading -/

/-- The text behind the end of a line, blanks and a comment in front of it or not. -/
def endOfLine (cs : List Char) : Option (List Char) :=
  match skipSpace cs with
  | [] => some []
  | '#' :: cs =>
    match cs.dropWhile isPlain with
    | [] => some []
    | cs => StringForm.afterLineEnd cs
  | cs => StringForm.afterLineEnd cs

def readHeader (cs : List Char) : Option (Statement × List Char) :=
  match cs with
  | '[' :: '[' :: cs => do
    let (path, cs) ← readPath cs
    return (.listItem path, ← Json.afterWord [']', ']'] cs)
  | '[' :: cs => do
    let (path, cs) ← readPath cs
    return (.table path, ← Json.afterWord [']'] cs)
  | _ => none

def readStatement (cs : List Char) : Option (Statement × List Char) :=
  match cs with
  | '[' :: _ => readHeader cs
  | _ => (readEntry (readValue maxDepth) cs).map fun r => (.entry r.1.1 r.1.2, r.2)

/-- The statements of a text, one a line; `fuel` bounds the number of lines. -/
def statementsRest : Nat → List Char → Option (List Statement)
  | 0, _ => none
  | fuel + 1, cs =>
    match skipSpace cs with
    | [] => some []
    | cs =>
      match endOfLine cs with
      | some cs => statementsRest fuel cs
      | none => do
        let (statement, cs) ← readStatement cs
        let cs ← endOfLine cs
        let statements ← statementsRest fuel cs
        return statement :: statements

/-- The statements of a whole text, behind a byte order mark or not. -/
def statements (s : String) : Option (List Statement) :=
  let cs := match s.toList with
    | '\ufeff' :: cs => cs
    | cs => cs
  statementsRest (cs.length + 1) cs

/-- The document that the whole text is. -/
def read (s : String) : Option Json := do
  let fields ← Fields.ofStatements? (← statements s)
  return fields.toJson

/-! ## Writing -/

/-- The values that are written behind a key: strings, whole numbers and the empty array. -/
def writtenValue : Json → Option (List Char)
  | .string s => some (writtenString s)
  | .int i => if fitsWord i then some (Decimal.digitsOfInt i) else none
  | .array [] => some ['[', ']']
  | _ => none

def Statement.written : Statement → Option (List Char)
  | entry path value => (writtenValue value).map fun v => path.written ++ [' ', '=', ' '] ++ v ++ ['\n']
  | table path => some ('[' :: path.written ++ [']', '\n'])
  | listItem path => some (['[', '['] ++ path.written ++ [']', ']', '\n'])

def Statement.isHeader : Statement → Bool
  | entry .. => false
  | _ => true

/-- Statements a line each, with an empty line in front of every header but one that comes first. -/
def writtenRest (isFirst : Bool) : List Statement → Option (List Char)
  | [] => some []
  | statement :: statements => do
    let line ← statement.written
    let lines ← writtenRest false statements
    return (if statement.isHeader && !isFirst then ['\n'] else []) ++ line ++ lines

def written (statements : List Statement) : Option String :=
  (writtenRest true statements).map String.ofList

end TemplateBar.Toml
