import TemplateBar.Json.Record

/-!
# Module definitions

A module definition names an item of the bar, gives its templates and the style that is handed to
whatever draws it.
-/
namespace TemplateBar

inductive ModuleKind where
  | generic | settings
  deriving DecidableEq, Repr

namespace ModuleKind

def name : ModuleKind → String
  | generic => "generic"
  | settings => "settings"

def ofName? (name : String) : Option ModuleKind :=
  [generic, settings].find? fun k => k.name == name

end ModuleKind

structure ModuleDefinition where
  id : String
  kind : ModuleKind := .generic
  template : String
  tooltip : Option String := none
  onClick : Option String := none
  style : Dict String := []
  deriving DecidableEq, Repr

namespace ModuleDefinition

/-- The names of the fields in documents, in order; a click template has two. -/
def fieldNames : List (List String) :=
  [["id"], ["kind"], ["template"], ["tooltip"], ["on_click", "onClick"], ["style"]]

def ofJson? (d : Json.Dialect) (j : Json) : Option ModuleDefinition :=
  match j.fields? d fieldNames with
  | some [some id, kind, some template, tooltip, onClick, style] => do
    return {
      id := ← id.string?
      kind := ← Json.fieldOr (fun k => (k.choice? d).bind ModuleKind.ofName?) .generic kind
      template := ← template.string?
      tooltip := ← Json.optionalString? tooltip
      onClick := ← Json.optionalString? onClick
      style := ← Json.fieldOr Json.stringDict? [] style }
  | _ => none

def optionalField (name : String) : Option String → List (String × Json)
  | some s => [(name, .string s)]
  | none => []

def toJson (m : ModuleDefinition) : Json :=
  .object ([("id", .string m.id), ("kind", .string m.kind.name), ("template", .string m.template)] ++
    optionalField "tooltip" m.tooltip ++ optionalField "on_click" m.onClick ++
    [("style", .object (Dict.mapValues .string m.style))])

end ModuleDefinition
end TemplateBar
