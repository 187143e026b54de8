import TemplateBar.Json.Record
import TemplateBar.Template.Value

/-!
# Focused windows

What the host reports about the window that has the focus: its name, its title and whatever else
the host adds.
-/
namespace TemplateBar

open Template (Value)

structure WindowSnapshot where
  name : String
  title : String
  extra : Dict Json := []
  deriving Repr

namespace WindowSnapshot

/-- What stands for the window when none has the focus. -/
def unfocused : WindowSnapshot := { name := "None", title := "No Window Focused" }

/-- The snapshot in an object with a name and a title; all other fields are kept. -/
def ofJson? : Json → Option WindowSnapshot
  | .object fs => do
    let name ← (← Dict.get? fs "name").string?
    let title ← (← Dict.get? fs "title").string?
    return ⟨name, title, fs.filter fun e => e.1 != "name" && e.1 != "title"⟩
  | _ => none

/-- Name and title first, then the other fields. -/
def toJson (w : WindowSnapshot) : Json :=
  .object (("name", .string w.name) :: ("title", .string w.title) :: w.extra)

/-- What expressions see under `window`. -/
def value {F : Type} (w : WindowSnapshot) : Value F :=
  .object (Dict.insert (Dict.insert (Dict.ofList (Value.ofFields w.extra))
    "name" (.string w.name)) "title" (.string w.title))

end WindowSnapshot
end TemplateBar
