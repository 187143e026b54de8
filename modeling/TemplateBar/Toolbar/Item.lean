import TemplateBar.Item.Settings

/-!
# Places on the bar

An item on the bar is a plain item or the settings item. What only the settings item does is done
by a plain item as nothing.
-/
namespace TemplateBar

inductive BarItem where
  | generic (item : Item)
  | settings (settings : SettingsItem)

namespace BarItem

/-- The item itself, or the one that the settings item wraps. -/
def item : BarItem → Item
  | generic i => i
  | settings s => s.item

/-- Change the item inside. -/
def mapItem (f : Item → Item) : BarItem → BarItem
  | generic i => generic (f i)
  | settings s => settings { s with item := f s.item }

def id (b : BarItem) : String := b.item.id

def state (b : BarItem) : ItemState := b.item.state

def settings? : BarItem → Option SettingsItem
  | generic _ => none
  | settings s => some s

/-- A new item of the kind that its definition asks for. -/
def create (definition : ModuleDefinition) (context : ItemContext) (cache : TemplateCache) :
    BarItem × TemplateCache :=
  let (item, cache) := Item.create definition context cache
  match definition.kind with
  | .generic => (generic item, cache)
  | .settings => (settings (.create item), cache)

def mount (b : BarItem) (icons : IconView) (surroundings : Dict String) :
    BarItem × Except BarError Unit × List HostTask :=
  match b with
  | generic i =>
    let (i, result) := i.mount icons surroundings
    (generic i, result, [])
  | settings s =>
    let (s, result, tasks) := s.mount icons surroundings
    (settings s, result, tasks)

def giveUpMount (b : BarItem) (cause : BarError) : BarItem × Except BarError Unit :=
  (b.mapItem fun i => (i.giveUpMount cause).1, (b.item.giveUpMount cause).2)

def unmount : BarItem → BarItem × Except BarError Unit
  | generic i =>
    let (i, result) := i.unmount
    (generic i, result)
  | settings s =>
    let (s, result) := s.unmount
    (settings s, result)

def apply (b : BarItem) (trigger : RenderTrigger) : BarItem × Option ItemView :=
  match b with
  | generic i =>
    let (i, view) := i.apply trigger
    (generic i, view)
  | settings s =>
    let (s, view) := s.apply trigger
    (settings s, view)

def render (b : BarItem) : BarItem × Option ItemView := b.apply .refresh

def click : BarItem → BarItem × List HostTask
  | generic i =>
    let (i, tasks) := i.click
    (generic i, tasks)
  | settings s =>
    let (s, tasks) := s.click
    (settings s, tasks)

/-- The answer to a brightness query. -/
def receive (b : BarItem) (ticket : MountTicket) (answer : Except ActionError Brightness) :
    BarItem :=
  match b with
  | generic i => generic i
  | settings s => settings (s.receive ticket answer)

end BarItem
end TemplateBar
