import TemplateBar.Config.Module
import TemplateBar.Config.Translations
import TemplateBar.Text.Blank
import TemplateBar.Error
import TemplateBar.Template.Eval

/-!
# Configurations

What a bar is built from. A configuration is valid when every module has an id that is not blank,
no two have the same id, and both budgets are positive.
-/
namespace TemplateBar

open Template (Limits)

structure BarConfig where
  logLevel : String
  limits : Limits
  icons : Dict String
  translations : Translations
  modules : List ModuleDefinition
  deriving DecidableEq, Repr

namespace BarConfig

/-- The modules of a bar that configures none. -/
def defaultModules : List ModuleDefinition :=
  [{ id := "focused-window"
     template := "window.name == 'None' ? '' : window.title"
     tooltip := some "window.name" },
   { id := "settings"
     kind := .settings
     template := "icon.RiSettings4Fill"
     tooltip := some "t('settings.title')" }]

def default : BarConfig where
  logLevel := "info"
  limits := {}
  icons := []
  translations := []
  modules := defaultModules

/-- The first module id that is blank or was seen before, if there is one. -/
def firstBadId (seen : List String) : List ModuleDefinition → Option ConfigCause
  | [] => none
  | m :: ms =>
    if Text.isAllBlank m.id then some .emptyModuleId
    else if m.id ∈ seen then some (.duplicateModuleId m.id)
    else firstBadId (m.id :: seen) ms

def validate (c : BarConfig) : Except BarError Unit :=
  match firstBadId [] c.modules with
  | some cause => .error (.config cause)
  | none =>
    if c.limits.maxSteps = 0 ∨ c.limits.maxDepth = 0 then .error (.config .zeroLimits) else .ok ()

def logLevelOfJson? (d : Json.Dialect) (j : Json) : Option String :=
  match j.fields? d [["log_level"]] with
  | some [level] => Json.fieldOr Json.string? default.logLevel level
  | _ => none

def limitsOfJson? (d : Json.Dialect) (j : Json) : Option Limits :=
  match j.fields? d [["max_steps"], ["max_depth"]] with
  | some [steps, depth] => do
    return ⟨← Json.fieldOr Json.nat? default.limits.maxSteps steps,
      ← Json.fieldOr Json.nat? default.limits.maxDepth depth⟩
  | _ => none

def modulesOfJson? (d : Json.Dialect) : Json → Option (List ModuleDefinition)
  | .array items => items.mapM (ModuleDefinition.ofJson? d)
  | _ => none

/-- The names of the fields in documents, in order. -/
def fieldNames : List (List String) :=
  [["general"], ["evaluator"], ["icons"], ["translations"], ["modules"]]

def ofJson? (d : Json.Dialect) (j : Json) : Option BarConfig :=
  match j.fields? d fieldNames with
  | some [general, evaluator, icons, translations, modules] => do
    return {
      logLevel := ← Json.fieldOr (logLevelOfJson? d) default.logLevel general
      limits := ← Json.fieldOr (limitsOfJson? d) default.limits evaluator
      icons := ← Json.fieldOr Json.stringDict? [] icons
      translations := ← Json.fieldOr Json.stringDict? [] translations
      modules := ← Json.fieldOr (modulesOfJson? d) defaultModules modules }
  | _ => none

def stringFields (d : Dict String) : Json := .object (Dict.mapValues .string d)

def toJson (c : BarConfig) : Json :=
  .object [
    ("general", .object [("log_level", .string c.logLevel)]),
    ("evaluator", .object [("max_steps", .int c.limits.maxSteps),
      ("max_depth", .int c.limits.maxDepth)]),
    ("icons", stringFields c.icons),
    ("translations", stringFields c.translations),
    ("modules", .array (c.modules.map ModuleDefinition.toJson))]

end BarConfig
end TemplateBar
