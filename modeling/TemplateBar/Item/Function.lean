import TemplateBar.Config.Translations
import TemplateBar.Template.Builtin

/-!
# Functions in an item's scope

A scope holds two functions beside its data: `t` looks up a translation, and `invoke` requests a
host command. Extra variables bring data and these functions only: what the program around the bar
computes by functions of its own, it computes before it hands the variables over.
-/
namespace TemplateBar

open Template (Value FunctionName HostFunction invokeEffect)

/-- The functions of a scope; no other function comes in with the extra variables. -/
inductive ItemFunction where
  | translate (t : Translations)
  | invoke
  deriving DecidableEq, Repr

instance : FunctionName ItemFunction where
  name
    | .translate _ => "t"
    | .invoke => "invoke"

/-- The translation of the first argument's display text, or of the empty key. -/
def Translations.apply (t : Translations) (args : List (Value ItemFunction)) : String :=
  t.translate ((args.head?.map Value.display).getD "")

instance : HostFunction ItemFunction where
  apply
    | .translate t, args => .ok (.string (Translations.apply t args))
    | .invoke, args => invokeEffect args

end TemplateBar
