import TemplateBar.Item.Basic

/-!
# The settings item

An item whose clicks open and close a panel with a button for the application's settings, a slider
for the brightness and four buttons for the power. The brightness is asked for at every mount and
every change of the panel; an answer that comes after the mount ended is dropped.
-/
namespace TemplateBar

structure PanelButton where
  icon : Node
  label : String
  command : HostCommand
  deriving DecidableEq, Repr

structure BrightnessSlider where
  icon : Node
  range : Brightness
  deriving DecidableEq, Repr

/-- What an open panel shows. -/
structure SettingsPanel where
  title : String
  appSettings : PanelButton
  brightness : Option BrightnessSlider
  power : List PanelButton
  deriving DecidableEq, Repr

def PanelButton.toJson (b : PanelButton) : Json :=
  .object [("icon", b.icon.toJson), ("label", .string b.label), ("command", .string b.command.name)]

def BrightnessSlider.toJson (b : BrightnessSlider) : Json :=
  .object [("icon", b.icon.toJson), ("min", .float b.range.min), ("max", .float b.range.max),
    ("current", .float b.range.current)]

def SettingsPanel.toJson (p : SettingsPanel) : Json :=
  .object [("title", .string p.title), ("app_settings", p.appSettings.toJson),
    ("brightness", Json.ofOption BrightnessSlider.toJson p.brightness),
    ("power", .array (p.power.map PanelButton.toJson))]

structure SettingsItem where
  item : Item
  isOpen : Bool
  brightness : Brightness

namespace SettingsItem

def create (item : Item) : SettingsItem := ⟨item, false, .none⟩

/-- A query for the brightness, while active. -/
def refreshBrightness (s : SettingsItem) : List HostTask :=
  if s.item.context.spawns then
    (s.item.lifecycle.ticket?.map (HostTask.queryBrightness s.item.id)).toList
  else []

def mount (s : SettingsItem) (icons : IconView) (surroundings : Dict String) :
    SettingsItem × Except BarError Unit × List HostTask :=
  match s.item.mount icons surroundings with
  | (item, .error e) => ({ s with item }, .error e, [])
  | (item, .ok ()) => ({ s with item }, .ok (), refreshBrightness { s with item })

/-- The panel closes before the item is unmounted. -/
def unmount (s : SettingsItem) : SettingsItem × Except BarError Unit :=
  let (item, result) := s.item.unmount
  ({ s with item, isOpen := false }, result)

/-- The item is always clickable, and drawn highlighted while the panel is open. -/
def apply (s : SettingsItem) (trigger : RenderTrigger) : SettingsItem × Option ItemView :=
  let (item, view) := (s.item.setActive s.isOpen).apply trigger
  ({ s with item }, view.map fun v => { v with clickable := true })

/-- Open or close the panel; a change asks for the brightness. -/
def setOpen (s : SettingsItem) (isOpen : Bool) : SettingsItem × List HostTask :=
  if s.isOpen = isOpen then (s, [])
  else
    let s := { s with isOpen }
    (s, s.refreshBrightness)

/-- Toggle the panel, then click the item itself. -/
def click (s : SettingsItem) : SettingsItem × List HostTask :=
  let (s, queries) := s.setOpen !s.isOpen
  let (item, calls) := s.item.click
  ({ s with item }, queries ++ calls)

/-- The application lost the focus. -/
def blur (s : SettingsItem) : SettingsItem × List HostTask := s.setOpen false

/-- The slider was moved; the host is not told. -/
def setBrightness (s : SettingsItem) (value : Float) : SettingsItem :=
  { s with brightness := s.brightness.setCurrent value }

/-- The answer to a query made under a ticket. -/
def receive (s : SettingsItem) (ticket : MountTicket) (answer : Except ActionError Brightness) :
    SettingsItem :=
  match answer with
  | .ok b => if ticket.isCurrent s.item.lifecycle then { s with brightness := b } else s
  | .error _ => s

/-- The command of a button; queries are no buttons. -/
def press (s : SettingsItem) (command : HostCommand) : List HostTask :=
  if command.isQuery then [] else s.item.tasksOf [⟨command, .null⟩]

/-- Icon, text key and command of the buttons. -/
def appSettingsButton : String × String × HostCommand :=
  ("RiSettings4Fill", "settings.app_settings", .showAppSettings)

def powerButtons : List (String × String × HostCommand) :=
  [("BiLogOut", "settings.log_out", .logOut), ("BiMoon", "settings.sleep", .suspend),
    ("VscDebugRestart", "settings.restart", .restart), ("GrPower", "settings.shutdown", .shutdown)]

def panelIcon (icons : IconView) (name : String) : Node :=
  .icon name none (icons.glyphOrName name)

def panelButton (icons : IconView) (t : Translations) (button : String × String × HostCommand) :
    PanelButton :=
  ⟨panelIcon icons button.1, t.translate button.2.1, button.2.2⟩

def slider (icons : IconView) (b : Brightness) : Option BrightnessSlider :=
  if b.isAdjustable then some ⟨panelIcon icons "CiBrightnessUp", b⟩ else none

/-- The panel, while it is open and the item active. -/
def panel (s : SettingsItem) : Option SettingsPanel :=
  if s.isOpen ∧ s.item.state = .active then
    s.item.icons.map fun icons =>
      let t := s.item.context.translations
      { title := t.translate "settings.title"
        appSettings := panelButton icons t appSettingsButton
        brightness := slider icons s.brightness
        power := powerButtons.map (panelButton icons t) }
  else none

end SettingsItem
end TemplateBar
