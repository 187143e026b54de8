import TemplateBar.Item.Function
import TemplateBar.Item.Lifecycle
import TemplateBar.Config.Module
import TemplateBar.Config.Window
import TemplateBar.Host.Effect
import TemplateBar.Icon.Node
import TemplateBar.Text.Blank

/-!
# Items

An item of the bar owns one scope. Mounting captures the icons and the environment in it; every
render writes the translation function, the focused window and the extra variables over it and
evaluates the content and the tooltip. A click evaluates the click template on the same scope and
leaves the host calls that it asks for as tasks to run later.
-/
namespace TemplateBar

open Template (Value Scope Limits)

abbrev ItemValue := Value ItemFunction

abbrev ItemScope := Scope ItemFunction

/-- Work that the bar leaves for later, run in the order in which it was left. -/
inductive HostTask where
  | call (c : HostCall)
  /-- Ask for the brightness on behalf of an item, as long as the ticket's mount lasts. -/
  | queryBrightness (item : String) (ticket : MountTicket)
  deriving Repr

/-- What an item reads while it lives. -/
structure ItemContext where
  translations : Translations
  /-- The budgets of every evaluation. One configuration gives them to what the item shows and to
  what carries out its clicks, so there is one pair for both. -/
  limits : Limits
  /-- The environment that the next mount captures; without one, that of the surroundings. -/
  environment : Option (Dict String)
  /-- Tasks can be left for later. -/
  spawns : Bool

/-- A change after which an item renders again. -/
inductive RenderTrigger where
  | focusChanged (window : Option WindowSnapshot)
  /-- The extra variables are replaced. Their functions are those of a scope. -/
  | varsChanged (vars : Dict ItemValue)
  | refresh

/-- What a mounted item shows. -/
structure ItemView where
  id : String
  style : Dict String
  clickable : Bool
  active : Bool
  content : List Node
  tooltip : Option (List Node)
  deriving DecidableEq, Repr

def ItemView.toJson (v : ItemView) : Json :=
  .object [("id", .string v.id), ("style", .object (Dict.mapValues .string v.style)),
    ("clickable", .bool v.clickable), ("active", .bool v.active),
    ("content", Node.listToJson v.content), ("tooltip", Json.ofOption Node.listToJson v.tooltip)]

structure Item where
  definition : ModuleDefinition
  content : Option CompiledTemplate
  tooltip : Option CompiledTemplate
  onClick : Option CompiledTemplate
  context : ItemContext
  lifecycle : Lifecycle
  scope : ItemScope
  /-- The icons captured by the current mount. -/
  icons : Option IconView
  window : Option WindowSnapshot
  extraVars : Dict ItemValue
  /-- The item is drawn highlighted. -/
  active : Bool
  /-- Clicks and keys are passed on to the program around the bar. -/
  hasClickHandler : Bool
  hasKeyHandler : Bool

namespace Item

/-- A template that is blank or does not compile is as good as none. -/
def compileSource (cache : TemplateCache) (source : Option String) :
    Option CompiledTemplate × TemplateCache :=
  match source with
  | none => (none, cache)
  | some s =>
    if Text.isAllBlank s then (none, cache)
    else ((cache.compile s).1.toOption, (cache.compile s).2)

/-- An item that was never mounted, its templates compiled through a cache. -/
def create (definition : ModuleDefinition) (context : ItemContext) (cache : TemplateCache) :
    Item × TemplateCache :=
  let (content, cache) := compileSource cache (some definition.template)
  let (tooltip, cache) := compileSource cache definition.tooltip
  let (onClick, cache) := compileSource cache definition.onClick
  ({ definition, content, tooltip, onClick, context
     lifecycle := .initial
     scope := []
     icons := none
     window := none
     extraVars := []
     active := false
     hasClickHandler := false
     hasKeyHandler := false }, cache)

def id (i : Item) : String := i.definition.id

def state (i : Item) : ItemState := i.lifecycle.state

/-- There is a click template, whether it compiles or not, or somebody else who takes clicks. -/
def isClickable (i : Item) : Bool :=
  i.definition.onClick.any (fun s => !Text.isAllBlank s) || i.hasClickHandler

def setEnvironment (i : Item) (environment : Dict String) : Item :=
  { i with context := { i.context with environment := some environment } }

def setActive (i : Item) (active : Bool) : Item := { i with active }

/-- Write one name of the scope. -/
def define (i : Item) (name : String) (value : ItemValue) : Item :=
  { i with scope := Dict.insert i.scope name value }

/-- The names written before every render: the translation function, the focused window, and the
extra variables over all else. -/
def refreshScope (i : Item) : Item :=
  let i := i.define "t" (.function (.host (.translate i.context.translations)))
  let i := i.define "window" (i.window.getD .unfocused).value
  { i with scope := Dict.overlay i.scope i.extraVars }

/-- The names written once for every mount. -/
def seedScope (i : Item) (icons : IconView) (surroundings : Dict String) : Item :=
  let environment := i.context.environment.getD surroundings
  let i := i.define "icon" icons.scopeValue
  let i := i.define "env" (.object (Dict.mapValues .string environment))
  let i := i.define "invoke" (.function (.host .invoke))
  { i with icons := some icons }

/-- Capture icons and environment, fill the scope and become active. -/
def mount (i : Item) (icons : IconView) (surroundings : Dict String) :
    Item × Except BarError Unit :=
  match i.lifecycle.transition .seeding with
  | .error e => (i, .error e)
  | .ok l =>
    let seeded := (seedScope { i with lifecycle := l } icons surroundings).refreshScope
    match seeded.lifecycle.transition .active with
    | .error e => (seeded, .error e)
    | .ok l => ({ seeded with lifecycle := l }, .ok ())

/-- A mount is given up when there are no icons to capture: seeding ends where it began. -/
def giveUpMount (i : Item) (cause : BarError) : Item × Except BarError Unit :=
  match i.lifecycle.transition .seeding with
  | .error e => (i, .error e)
  | .ok l =>
    match l.transition .unmounted with
    | .error e => ({ i with lifecycle := l }, .error e)
    | .ok l => ({ i with lifecycle := l }, .error cause)

def unmount (i : Item) : Item × Except BarError Unit :=
  match i.lifecycle.transition .unmounted with
  | .error e => (i, .error e)
  | .ok l => ({ i with lifecycle := l, icons := none }, .ok ())

/-- The nodes of a template's value; none for no template and for one that fails. -/
def templateNodes (i : Item) (template : Option CompiledTemplate) (icons : IconView) : List Node :=
  match template with
  | none => []
  | some t =>
    match t.evaluate i.scope i.context.limits with
    | .ok v => icons.nodes v
    | .error _ => []

/-- What the item shows on its scope as it is. -/
def view (i : Item) (icons : IconView) : Option ItemView :=
  let content := i.templateNodes i.content icons
  if content.isEmpty then none
  else
    let tooltip := i.templateNodes i.tooltip icons
    some {
      id := i.id
      style := i.definition.style
      clickable := i.isClickable
      active := i.active
      content
      tooltip := if tooltip.isEmpty then none else some tooltip }

/-- Refresh the scope and show; an item that is not active shows nothing and stays as it is. -/
def render (i : Item) : Item × Option ItemView :=
  if i.state = .active then
    let i := i.refreshScope
    (i, i.icons.bind i.view)
  else (i, none)

/-- Keep what a trigger brings. -/
def store (i : Item) : RenderTrigger → Item
  | .focusChanged window => { i with window }
  | .varsChanged vars => { i with extraVars := vars }
  | .refresh => i

def apply (i : Item) (trigger : RenderTrigger) : Item × Option ItemView :=
  (i.store trigger).render

/-- Host calls as tasks, where tasks can be left. -/
def tasksOf (i : Item) (calls : List HostCall) : List HostTask :=
  if i.context.spawns then calls.map .call else []

/-- Evaluate the click template while active, with the budgets of the other templates. -/
def click (i : Item) : Item × List HostTask :=
  if i.state = .active then
    let i := i.refreshScope
    (i, i.tasksOf (clickCalls i.onClick i.scope i.context.limits))
  else (i, [])

end Item
end TemplateBar
