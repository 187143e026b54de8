import TemplateBar.Text.Quoted

/-!
# Failures of the bar

The failures that reach the surface of the library, by the part of it they come from. Failures of
expressions and of host calls have types of their own and arrive here as their messages.
-/
namespace TemplateBar

/-- The states of an item. -/
inductive ItemState where
  | unmounted | seeding | active
  deriving DecidableEq, Repr

def ItemState.name : ItemState → String
  | unmounted => "Unmounted"
  | seeding => "ScopeSeeding"
  | active => "Active"

/-- Why a configuration or a registration is refused. -/
inductive ConfigCause where
  | invalidIconName (name : String)
  | emptyModuleId
  | duplicateModuleId (id : String)
  | zeroLimits
  | unreadable
  | unwritable
  | other (text : String)
  deriving DecidableEq, Repr

def ConfigCause.message : ConfigCause → String
  | invalidIconName name => "invalid icon name: " ++ Text.quote name
  | emptyModuleId => "module id must not be empty"
  | duplicateModuleId id => "duplicate module id: " ++ id
  | zeroLimits => "evaluator limits must be greater than zero"
  | unreadable => "malformed document"
  | unwritable => "number out of range"
  | other text => text

inductive LifecycleCause where
  | invalidTransition (source target : ItemState)
  | other (text : String)
  deriving DecidableEq, Repr

def LifecycleCause.message : LifecycleCause → String
  | invalidTransition source target =>
    "Invalid state transition: " ++ source.name ++ " -> " ++ target.name
  | other text => text

inductive BarError where
  | config (cause : ConfigCause)
  | io (text : String)
  | serialization (text : String)
  | template (text : String)
  | lifecycle (cause : LifecycleCause)
  | action (text : String)
  deriving DecidableEq, Repr

def BarError.message : BarError → String
  | config cause => "Configuration error: " ++ cause.message
  | io text => "I/O error: " ++ text
  | serialization text => "Serialization error: " ++ text
  | template text => "Template error: " ++ text
  | lifecycle cause => "Lifecycle error: " ++ cause.message
  | action text => "Action error: " ++ text

end TemplateBar
