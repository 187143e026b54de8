import TemplateBar.Config.Basic
import TemplateBar.Toml.Document

/-!
# Configuration files

A configuration stands in a file as a TOML document: general settings, budgets, icons and
translations in a table each, then one table per module. What is read is valid.
-/
namespace TemplateBar.BarConfig

open Toml (Statement)

/-! ## Reading -/

/-- Arrays may be longer than the record, and a choice without content has an empty table or array
beside it. -/
def fileDialect : Json.Dialect where
  surplusItems := true
  isNoContent
    | .object [] => true
    | .array [] => true
    | _ => false

/-- The configuration that a text holds. -/
def ofText (text : String) : Except BarError BarConfig :=
  match (Toml.read text).bind (ofJson? fileDialect) with
  | none => .error (.config .unreadable)
  | some c =>
    match c.validate with
    | .error e => .error e
    | .ok () => .ok c

/-- The configuration in a file, given as its bytes if it is there. -/
def load : Option ByteArray → Except BarError BarConfig
  | none => .error (.io "No such file or directory (os error 2)")
  | some bytes =>
    match String.fromUTF8? bytes with
    | none => .error (.io "stream did not contain valid UTF-8")
    | some text => ofText text

def loadOrDefault (file : Option ByteArray) : BarConfig :=
  match load file with
  | .ok c => c
  | .error _ => default

/-! ## Writing -/

def entry (key : String) (value : Json) : Statement := .entry ⟨[], key⟩ value

def textEntries (d : Dict String) : List Statement := d.map fun e => entry e.1 (.string e.2)

def optionalEntry (key : String) : Option String → List Statement
  | some s => [entry key (.string s)]
  | none => []

def moduleStatements (m : ModuleDefinition) : List Statement :=
  [.listItem ⟨[], "modules"⟩, entry "id" (.string m.id), entry "kind" (.string m.kind.name),
      entry "template" (.string m.template)] ++
    optionalEntry "tooltip" m.tooltip ++ optionalEntry "on_click" m.onClick ++
    .table ⟨["modules"], "style"⟩ :: textEntries m.style

/-- A bar without modules says so in front of all tables. -/
def statements (c : BarConfig) : List Statement :=
  (if c.modules = [] then [entry "modules" (.array [])] else []) ++
    [.table ⟨[], "general"⟩, entry "log_level" (.string c.logLevel),
      .table ⟨[], "evaluator"⟩, entry "max_steps" (.int c.limits.maxSteps),
      entry "max_depth" (.int c.limits.maxDepth)] ++
    .table ⟨[], "icons"⟩ :: textEntries c.icons ++
    .table ⟨[], "translations"⟩ :: textEntries c.translations ++
    c.modules.flatMap moduleStatements

/-- The text of a configuration, if its budgets can be written. -/
def toText (c : BarConfig) : Except BarError String :=
  match Toml.written c.statements with
  | some text => .ok text
  | none => .error (.config .unwritable)

end TemplateBar.BarConfig
