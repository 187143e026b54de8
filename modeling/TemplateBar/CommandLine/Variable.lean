import TemplateBar.Json.Read
import TemplateBar.Text.Blank
import TemplateBar.Text.Cut
import TemplateBar.Text.Quoted

/-!
# Variables of the command line

An argument `KEY=VALUE` names a variable and its value: a document if the text is one, else the
text itself.
-/
namespace TemplateBar.CommandLine

structure Variable where
  key : String
  value : Json

inductive VariableError where
  | noEquals (argument : String)
  | emptyName (argument : String)
  deriving DecidableEq, Repr

def VariableError.message : VariableError → String
  | noEquals argument => "expected KEY=VALUE, got " ++ Text.quote argument
  | emptyName argument => "empty variable name in " ++ Text.quote argument

namespace Variable

def valueOf (text : String) : Json := (Json.read Json.maxDepth text).getD (.string text)

/-- The key ends at the first equals sign; blanks around it do not count. -/
def parse (argument : String) : Except VariableError Variable :=
  match Text.cutAt? '=' argument.toList with
  | none => .error (.noEquals argument)
  | some (key, value) =>
    match Text.trimChars key with
    | [] => .error (.emptyName argument)
    | key => .ok ⟨String.ofList key, valueOf (String.ofList value)⟩

end Variable
end TemplateBar.CommandLine
