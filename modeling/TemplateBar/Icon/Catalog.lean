import TemplateBar.Error
import TemplateBar.Dict
import TemplateBar.Text.Word
import TemplateBar.Template.Value

/-!
# Icon catalogs

A catalog registers icon names with their glyphs and may grow at any time. A view is a snapshot of
it that never changes; the catalog keeps the last view it handed out until the next registration.
-/
namespace TemplateBar

open Text (isAsciiAlpha isAsciiWord)
open Template (Value)

/-- A letter, then letters, digits and underscores. -/
def isIconName (name : String) : Bool :=
  match name.toList with
  | [] => false
  | c :: cs => isAsciiAlpha c && cs.all isAsciiWord

/-- A snapshot of the registered icons: glyphs by name. -/
structure IconView where
  glyphs : Dict String
  deriving DecidableEq, Repr

namespace IconView

def glyph? (v : IconView) (name : String) : Option String := Dict.get? v.glyphs name

def names (v : IconView) : List String := Dict.keys v.glyphs

/-- What expressions see under `icon`: each name as its own member. -/
def scopeValue {F : Type} (v : IconView) : Value F :=
  .object (v.glyphs.map fun e => (e.1, .string e.1))

end IconView

structure IconCatalog where
  glyphs : Dict String
  /-- The view of the glyphs, if one was handed out since the last registration. -/
  cached : Option IconView
  deriving DecidableEq, Repr

namespace IconCatalog

def empty : IconCatalog := ⟨[], none⟩

/-- Add an icon or replace its glyph. -/
def register (c : IconCatalog) (name glyph : String) : Except BarError IconCatalog :=
  if isIconName name then .ok ⟨Dict.insert c.glyphs name glyph, none⟩
  else .error (.config (.invalidIconName name))

/-- A view of the catalog as it is now, and the catalog that keeps it. The pattern that a view
searches for is taken to compile, however many names there are. -/
def snapshot (c : IconCatalog) : IconView × IconCatalog :=
  match c.cached with
  | some v => (v, c)
  | none => (⟨c.glyphs⟩, { c with cached := some ⟨c.glyphs⟩ })

/-- Register what has a valid name and leave out the rest. -/
def registerAll (c : IconCatalog) (icons : List (String × String)) : IconCatalog :=
  icons.foldl (fun c e => (c.register e.1 e.2).toOption.getD c) c

/-- The icons that the settings panel needs. -/
def defaultIcons : List (String × String) :=
  [("RiSettings4Fill", "\u2699"), ("CiBrightnessUp", "\u2600"), ("BiLogOut", "\u21e5"),
    ("BiMoon", "\u263e"), ("VscDebugRestart", "\u21bb"), ("GrPower", "\u23fb")]

def withDefaults : IconCatalog := empty.registerAll defaultIcons

/-- The default icons and those of a configuration. -/
def ofConfig (icons : Dict String) : IconCatalog := withDefaults.registerAll icons

end IconCatalog
end TemplateBar
