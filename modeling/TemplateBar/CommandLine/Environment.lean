import TemplateBar.Dict
import TemplateBar.Text.Cut

/-!
# Environments

The environment of a process is a list of variables, each written as its name, an equals sign and
its value, and closed by a zero character.
-/
namespace TemplateBar.CommandLine

/-- One variable. -/
def environmentEntry? (cs : List Char) : Option (String × String) :=
  (Text.cutAt? '=' cs).map fun r => (String.ofList r.1, String.ofList r.2)

def environmentOfText (text : String) : Dict String :=
  Dict.ofList ((text.toList.splitOn '\x00').filterMap environmentEntry?)

example : environmentOfText "A=1\x00B=x=y\x00" = [("A", "1"), ("B", "x=y")] := by decide +kernel

end TemplateBar.CommandLine
