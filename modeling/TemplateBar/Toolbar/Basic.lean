import TemplateBar.Toolbar.Item
import TemplateBar.Config.Basic

/-!
# Toolbars

A toolbar is a list of items with distinct ids that share one icon catalog and one template cache.
It passes triggers on to all items, clicks and keys to the item they name, and can be put into
another order.
-/
namespace TemplateBar

structure Toolbar where
  items : List BarItem
  context : ItemContext
  catalog : IconCatalog
  cache : TemplateCache

namespace Toolbar

def empty (context : ItemContext) (catalog : IconCatalog) : Toolbar :=
  ⟨[], context, catalog, .empty context.limits.maxDepth⟩

def ids (t : Toolbar) : List String := t.items.map BarItem.id

def get? (t : Toolbar) (id : String) : Option BarItem := t.items.find? fun b => b.id == id

/-- Append an item, unless one with its id is there. -/
def push (t : Toolbar) (definition : ModuleDefinition) : Except BarError Toolbar :=
  if definition.id ∈ t.ids then .error (.config (.duplicateModuleId definition.id))
  else
    let (b, cache) := BarItem.create definition t.context t.cache
    .ok { t with items := t.items ++ [b], cache }

/-- The toolbar of a configuration, which must be valid. -/
def ofConfig (config : BarConfig) (spawns : Bool) : Except BarError Toolbar := do
  config.validate
  let context : ItemContext := ⟨config.translations, config.limits, none, spawns⟩
  config.modules.foldlM push (empty context (.ofConfig config.icons))

/-- Fix the environment of all items, from the next mount on. -/
def withEnvironment (t : Toolbar) (environment : Dict String) : Toolbar :=
  { t with
    items := t.items.map (BarItem.mapItem (Item.setEnvironment · environment))
    context := { t.context with environment := some environment } }

/-- Change the item with the given id. -/
def modify (t : Toolbar) (id : String) (f : BarItem → BarItem) : Toolbar :=
  { t with items := t.items.map fun b => if b.id = id then f b else b }

/-- Mount the items that are not mounted, in order, up to the first failure. -/
def mountItems (icons : IconView) (surroundings : Dict String) :
    List BarItem → List BarItem × Except BarError Unit × List HostTask
  | [] => ([], .ok (), [])
  | b :: bs =>
    if b.state = .unmounted then
      match b.mount icons surroundings with
      | (b, .error e, tasks) => (b :: bs, .error e, tasks)
      | (b, .ok (), tasks) =>
        let (bs, result, more) := mountItems icons surroundings bs
        (b :: bs, result, tasks ++ more)
    else
      let (bs, result, tasks) := mountItems icons surroundings bs
      (b :: bs, result, tasks)

def mountAll (t : Toolbar) (surroundings : Dict String) :
    Toolbar × Except BarError Unit × List HostTask :=
  let (icons, catalog) := t.catalog.snapshot
  let (items, result, tasks) := mountItems icons surroundings t.items
  ({ t with items, catalog }, result, tasks)

/-- Unmount the items that are mounted, in order, up to the first failure. -/
def unmountItems : List BarItem → List BarItem × Except BarError Unit
  | [] => ([], .ok ())
  | b :: bs =>
    if b.state = .unmounted then
      let (bs, result) := unmountItems bs
      (b :: bs, result)
    else
      match b.unmount with
      | (b, .error e) => (b :: bs, .error e)
      | (b, .ok ()) =>
        let (bs, result) := unmountItems bs
        (b :: bs, result)

def unmountAll (t : Toolbar) : Toolbar × Except BarError Unit :=
  let (items, result) := unmountItems t.items
  ({ t with items }, result)

/-- Send a trigger to every item; the views of those that show something. -/
def apply (t : Toolbar) (trigger : RenderTrigger) : Toolbar × List ItemView :=
  let rendered := t.items.map (BarItem.apply · trigger)
  ({ t with items := rendered.map (·.1) }, rendered.filterMap (·.2))

/-- Click the item with the given id, if there is one. -/
def click (t : Toolbar) (id : String) : Toolbar × Option (List HostTask) :=
  match t.get? id with
  | none => (t, none)
  | some b => (t.modify id fun _ => b.click.1, some b.click.2)

/-- The item with the given id takes the key. -/
def takesKey (t : Toolbar) (id : String) : Bool := (t.get? id).any fun b => b.item.hasKeyHandler

/-- Take the first item with the given id out of a list. -/
def takeOut (id : String) : List BarItem → Option (BarItem × List BarItem)
  | [] => none
  | b :: bs =>
    if b.id = id then some (b, bs)
    else (takeOut id bs).map fun r => (r.1, b :: r.2)

/-- The items with the given ids first, in that order, then the others as they were. -/
def reorderItems : List String → List BarItem → List BarItem
  | [], bs => bs
  | id :: ids, bs =>
    match takeOut id bs with
    | some (b, rest) => b :: reorderItems ids rest
    | none => reorderItems ids bs

def reorder (t : Toolbar) (ids : List String) : Toolbar :=
  { t with items := reorderItems ids t.items }

/-- Add an icon to the shared catalog. -/
def registerIcon (t : Toolbar) (name glyph : String) : Except BarError Toolbar := do
  return { t with catalog := ← t.catalog.register name glyph }

/-- Run one task that was left for later. -/
def runTask (t : Toolbar) (host : Host) : HostTask → Toolbar × Host
  | .call c => (t, (host.invoke c).2)
  | .queryBrightness id ticket =>
    let (answer, host) := host.fetchBrightness
    (t.modify id (BarItem.receive · ticket answer), host)

/-- Run tasks in the order in which they were left. -/
def runTasks (t : Toolbar) (host : Host) (tasks : List HostTask) : Toolbar × Host :=
  tasks.foldl (fun s task => s.1.runTask s.2 task) (t, host)

end Toolbar
end TemplateBar
