/-!
# Cutting texts

A text is cut at the first place of a character, which belongs to neither part.
-/
namespace TemplateBar.Text

/-- What stands in front of the first `c` and what behind it. -/
def cutAt? (c : Char) : List Char → Option (List Char × List Char)
  | [] => none
  | d :: cs => if d = c then some ([], cs) else (cutAt? c cs).map fun r => (d :: r.1, r.2)

end TemplateBar.Text
