import TemplateBar.Host.Bridge
import TemplateBar.Template.Compiled

/-!
# From values to host calls

A click's value asks for host calls through the effects that it is or, as an array, holds. Names
that are no host commands are skipped.
-/
namespace TemplateBar

open Template (Value Scope Limits HostFunction)

/-- The effects of a value: the value itself, or the effects among the items of an array. -/
def effects {F : Type} : Value F → List (String × Json)
  | .effect command args => [(command, args)]
  | .array items => items.filterMap fun
    | .effect command args => some (command, args)
    | _ => none
  | _ => []

/-- The host call of an effect, if its command is known. -/
def callOfEffect (e : String × Json) : Option HostCall :=
  (HostCommand.ofName? e.1).map (⟨·, e.2⟩)

/-- The host calls that a template's value on a scope asks for. -/
def clickCalls {F : Type} [DecidableEq F] [HostFunction F] (template : Option CompiledTemplate)
    (scope : Scope F) (limits : Limits) : List HostCall :=
  match template with
  | none => []
  | some t =>
    match t.evaluate scope limits with
    | .ok v => (effects v).filterMap callOfEffect
    | .error _ => []

end TemplateBar
