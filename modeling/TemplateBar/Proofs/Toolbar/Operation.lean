import TemplateBar.Toolbar.Basic
import TemplateBar.Proofs.Item.Coherent

/-!
# Operations on an item of the bar

Everything that can be done to an item of either kind, and what it leads to. Seen from the item
inside, each operation is a short run of that item, so what holds of its runs holds on the bar. The
queries that an operation leaves name the item at hand and carry a ticket for the mount it is in.
-/
namespace TemplateBar

/-- What only the settings item does. -/
inductive SettingsOp where
  | setOpen (isOpen : Bool)
  | blur
  | refreshBrightness
  | setBrightness (value : Float)
  | press (command : HostCommand)

/-- What the bar and the program around it do to an item as such. Of what the item inside a settings
item can do by itself, highlighting and the environment are the only operations here: it is mounted
and rendered by the settings item alone. -/
inductive BarItemOp where
  | mount (surroundings : Dict String)
  | unmount
  | apply (trigger : RenderTrigger)
  | click
  | key (name : String)
  | setActive (active : Bool)
  | setEnvironment (environment : Dict String)
  | settings (op : SettingsOp)

/-- The item after an operation and all that the operation gives away. -/
structure Reaction where
  item : BarItem
  result : Except BarError Unit := .ok ()
  view : Option ItemView := none
  /-- The key that the program around the bar took. -/
  key : Option String := none
  tasks : List HostTask := []

def SettingsItem.act (s : SettingsItem) : SettingsOp → SettingsItem × List HostTask
  | .setOpen isOpen => s.setOpen isOpen
  | .blur => s.blur
  | .refreshBrightness => (s, s.refreshBrightness)
  | .setBrightness value => (s.setBrightness value, [])
  | .press command => (s, s.press command)

namespace BarItem

/-- Carry out an operation; `icons` are those that a mount captures. -/
def act (b : BarItem) (icons : IconView) : BarItemOp → Reaction
  | .mount surroundings =>
    { item := (b.mount icons surroundings).1
      result := (b.mount icons surroundings).2.1
      tasks := (b.mount icons surroundings).2.2 }
  | .unmount => { item := b.unmount.1, result := b.unmount.2 }
  | .apply trigger => { item := (b.apply trigger).1, view := (b.apply trigger).2 }
  | .click => { item := b.click.1, tasks := b.click.2 }
  | .key name => { item := b, key := if b.item.hasKeyHandler then some name else none }
  | .setActive active => { item := b.mapItem (Item.setActive · active) }
  | .setEnvironment environment => { item := b.mapItem (Item.setEnvironment · environment) }
  | .settings op =>
    match b with
    | generic i => { item := generic i }
    | settings s => { item := settings (s.act op).1, tasks := (s.act op).2 }

/-- The operation is a mount that succeeds. -/
def begins (b : BarItem) (icons : IconView) (op : BarItemOp) : Bool :=
  match op with
  | .mount _ => (b.act icons op).result.isOk
  | _ => false

/-- What an operation does to the item inside. -/
def itemOps (b : BarItem) (icons : IconView) : BarItemOp → List ItemOp
  | .mount surroundings => [.mount icons surroundings]
  | .unmount => [.unmount]
  | .apply trigger =>
    match b with
    | generic _ => [.apply trigger]
    | settings s => [.setActive s.isOpen, .apply trigger]
  | .click => [.click]
  | .setActive active => [.setActive active]
  | .setEnvironment environment => [.setEnvironment environment]
  | .key _ | .settings _ => []

end BarItem

/-- A task that only asks the host for something, or a query on behalf of an item, made while the
item's lifecycle is `l`. -/
def HostTask.LeftAt (id : String) (l : Lifecycle) : HostTask → Prop
  | .call _ => True
  | .queryBrightness item ticket => item = id ∧ l.ticket? = some ticket

namespace Item

variable {i : Item}

@[simp] theorem click_lifecycle (i : Item) : i.click.1.lifecycle = i.lifecycle := by
  rw [click_fst]
  split <;> rfl

theorem leftAt_tasksOf {calls : List HostCall} {task : HostTask} (h : task ∈ i.tasksOf calls)
    (id : String) (l : Lifecycle) : task.LeftAt id l := by
  unfold tasksOf at h
  split at h
  · obtain ⟨c, -, rfl⟩ := List.mem_map.mp h
    trivial
  · cases h

theorem leftAt_click {task : HostTask} (h : task ∈ i.click.2) (id : String) (l : Lifecycle) :
    task.LeftAt id l := by
  unfold click at h
  split at h
  · exact leftAt_tasksOf h id l
  · cases h

/-- The number of mounts grows with each mount of an unmounted item and not otherwise. -/
theorem Coherent.step_generation (h : i.Coherent) (op : ItemOp) :
    (i.step op).lifecycle.generation = i.lifecycle.generation +
      match op with
      | .mount _ _ => if i.state = .unmounted then 1 else 0
      | _ => 0 := by
  rw [h.step_lifecycle op]
  cases op with
  | mount icons surroundings =>
    dsimp only
    split <;> rfl
  | unmount =>
    dsimp only
    split <;> rfl
  | apply trigger | click | setActive active | setEnvironment environment => rfl

end Item

namespace SettingsItem

variable {s : SettingsItem}

theorem mount_fst (s : SettingsItem) (icons : IconView) (surroundings : Dict String) :
    (s.mount icons surroundings).1 = { s with item := (s.item.mount icons surroundings).1 } := by
  unfold mount
  rcases s.item.mount icons surroundings with ⟨item, e | ⟨⟩⟩ <;> rfl

theorem mount_result (s : SettingsItem) (icons : IconView) (surroundings : Dict String) :
    (s.mount icons surroundings).2.1 = (s.item.mount icons surroundings).2 := by
  unfold mount
  rcases s.item.mount icons surroundings with ⟨item, e | ⟨⟩⟩ <;> rfl

theorem setOpen_fst (s : SettingsItem) (isOpen : Bool) :
    (s.setOpen isOpen).1 = { s with isOpen } := by
  unfold setOpen
  split
  · next h => rw [← h]
  · rfl

theorem click_fst (s : SettingsItem) :
    s.click.1 = { s with item := s.item.click.1, isOpen := !s.isOpen } := by
  unfold click
  simp only [setOpen_fst]

theorem click_snd (s : SettingsItem) : s.click.2 = (s.setOpen !s.isOpen).2 ++ s.item.click.2 := by
  unfold click
  simp only [setOpen_fst]

theorem act_item (s : SettingsItem) (op : SettingsOp) : (s.act op).1.item = s.item := by
  cases op with
  | setOpen isOpen => rw [act, setOpen_fst]
  | blur => rw [act, blur, setOpen_fst]
  | refreshBrightness => rfl
  | setBrightness value => rfl
  | press command => rfl

theorem act_brightness (s : SettingsItem) {op : SettingsOp}
    (h : ∀ value, op ≠ .setBrightness value) : (s.act op).1.brightness = s.brightness := by
  cases op with
  | setOpen isOpen => rw [act, setOpen_fst]
  | blur => rw [act, blur, setOpen_fst]
  | refreshBrightness => rfl
  | setBrightness value => exact absurd rfl (h value)
  | press command => rfl

theorem leftAt_refreshBrightness {task : HostTask} (h : task ∈ s.refreshBrightness) :
    task.LeftAt s.item.id s.item.lifecycle := by
  unfold refreshBrightness at h
  split at h
  · obtain ⟨ticket, ht, rfl⟩ := Option.map_eq_some_iff.mp (Option.mem_toList.mp h)
    exact ⟨rfl, ht⟩
  · cases h

theorem leftAt_setOpen {isOpen : Bool} {task : HostTask} (h : task ∈ (s.setOpen isOpen).2) :
    task.LeftAt s.item.id s.item.lifecycle := by
  unfold setOpen at h
  split at h
  · cases h
  · exact leftAt_refreshBrightness (s := { s with isOpen }) h

theorem leftAt_mount {icons : IconView} {surroundings : Dict String} {task : HostTask}
    (h : task ∈ (s.mount icons surroundings).2.2) :
    task.LeftAt (s.item.mount icons surroundings).1.id
      (s.item.mount icons surroundings).1.lifecycle := by
  unfold mount at h
  rcases hm : s.item.mount icons surroundings with ⟨item, e | ⟨⟩⟩
  · simp [hm] at h
  · simp only [hm] at h
    exact leftAt_refreshBrightness h

theorem leftAt_act {op : SettingsOp} {task : HostTask} (h : task ∈ (s.act op).2) :
    task.LeftAt s.item.id s.item.lifecycle := by
  cases op with
  | setOpen isOpen => exact leftAt_setOpen h
  | blur => exact leftAt_setOpen h
  | refreshBrightness => exact leftAt_refreshBrightness h
  | setBrightness value => cases h
  | press command =>
    change task ∈ s.press command at h
    unfold press at h
    split at h
    · cases h
    · exact Item.leftAt_tasksOf h _ _

end SettingsItem

namespace BarItem

variable {b : BarItem}

theorem act_item (b : BarItem) (icons : IconView) (op : BarItemOp) :
    (b.act icons op).item.item = b.item.run (b.itemOps icons op) := by
  cases b with
  | generic i => cases op <;> rfl
  | settings s =>
    cases op with
    | mount surroundings => exact congrArg SettingsItem.item (s.mount_fst icons surroundings)
    | unmount => rfl
    | apply trigger => rfl
    | click => exact congrArg SettingsItem.item s.click_fst
    | key name => rfl
    | setActive active => rfl
    | setEnvironment environment => rfl
    | settings op => exact s.act_item op

theorem act_setup (b : BarItem) (icons : IconView) (op : BarItemOp) :
    (b.act icons op).item.item.setup = b.item.setup := by
  rw [act_item, Item.run_setup]

@[simp] theorem act_id (b : BarItem) (icons : IconView) (op : BarItemOp) :
    (b.act icons op).item.id = b.id :=
  congrArg (·.definition.id) (b.act_setup icons op)

theorem coherent_act (h : b.item.Coherent) (icons : IconView) (op : BarItemOp) :
    (b.act icons op).item.item.Coherent := by
  rw [act_item]
  exact h.run _

/-- A query is made on behalf of the item at hand, in the mount that the operation leaves it in. -/
theorem leftAt_act {icons : IconView} {op : BarItemOp} {task : HostTask}
    (h : task ∈ (b.act icons op).tasks) :
    task.LeftAt b.id (b.act icons op).item.item.lifecycle := by
  cases b with
  | generic i =>
    cases op with
    | click => exact Item.leftAt_click h _ _
    | _ => cases h
  | settings s =>
    cases op with
    | mount surroundings =>
      have hid := (settings s).act_id icons (.mount surroundings)
      rw [← hid]
      change task.LeftAt (s.mount icons surroundings).1.item.id
        (s.mount icons surroundings).1.item.lifecycle
      rw [s.mount_fst]
      exact SettingsItem.leftAt_mount h
    | click =>
      change task ∈ s.click.2 at h
      rw [s.click_snd] at h
      change task.LeftAt s.item.id s.click.1.item.lifecycle
      rw [s.click_fst, Item.click_lifecycle]
      rcases List.mem_append.mp h with h | h
      · exact SettingsItem.leftAt_setOpen h
      · exact Item.leftAt_click h _ _
    | settings op =>
      change task.LeftAt s.item.id (s.act op).1.item.lifecycle
      rw [s.act_item]
      exact SettingsItem.leftAt_act h
    | _ => cases h

theorem begins_mount (h : b.item.Coherent) (icons : IconView) (surroundings : Dict String) :
    b.begins icons (.mount surroundings) = decide (b.item.state = .unmounted) := by
  have hr : (b.act icons (.mount surroundings)).result = (b.item.mount icons surroundings).2 := by
    cases b with
    | generic i => rfl
    | settings s => exact s.mount_result icons surroundings
  unfold begins
  rw [hr]
  rcases h.state with hu | ha
  · rw [Item.mount_of_unmounted hu, hu]
    rfl
  · rw [Item.mount_of_ne_unmounted (by simp [ha]), ha]
    rfl

theorem act_generation (h : b.item.Coherent) (icons : IconView) (op : BarItemOp) :
    (b.act icons op).item.item.lifecycle.generation =
      b.item.lifecycle.generation + if b.begins icons op then 1 else 0 := by
  rw [act_item]
  cases op with
  | mount surroundings =>
    simp only [begins_mount h, decide_eq_true_eq]
    exact h.step_generation (.mount icons surroundings)
  | unmount => exact h.step_generation .unmount
  | apply trigger =>
    cases b with
    | generic i => exact h.step_generation (.apply trigger)
    | settings s =>
      exact (h.step (.setActive s.isOpen)).step_generation (.apply trigger)
  | click => exact h.step_generation .click
  | key name => rfl
  | setActive active => rfl
  | setEnvironment environment => rfl
  | settings op => rfl

/-- Whether it succeeds or not, a mount leaves the item active and an unmount leaves it unmounted. -/
theorem act_state (h : b.item.Coherent) (icons : IconView) (op : BarItemOp) :
    (b.act icons op).item.state =
      match op with
      | .mount _ => .active
      | .unmount => .unmounted
      | _ => b.state := by
  change (b.act icons op).item.item.state = _
  rw [act_item]
  cases op with
  | mount surroundings =>
    refine (congrArg Lifecycle.state (h.step_lifecycle (.mount icons surroundings))).trans ?_
    rcases h.state with hu | ha
    · simp only [hu, if_true]
      rfl
    · simp only [ha, reduceCtorEq, if_false]
      exact ha
  | unmount =>
    refine (congrArg Lifecycle.state (h.step_lifecycle .unmount)).trans ?_
    rcases h.state with hu | ha
    · simp only [hu, if_true]
      exact hu
    · simp only [ha]
      rfl
  | apply trigger =>
    cases b with
    | generic i => exact congrArg Lifecycle.state (h.step_lifecycle (.apply trigger))
    | settings s =>
      exact congrArg Lifecycle.state ((h.step (.setActive s.isOpen)).step_lifecycle (.apply trigger))
  | click => exact congrArg Lifecycle.state (h.step_lifecycle .click)
  | key name => rfl
  | setActive active => rfl
  | setEnvironment environment => rfl
  | settings op => rfl

/-- The brightness that a settings item holds. -/
def brightness? (b : BarItem) : Option Brightness := b.settings?.map (·.brightness)

theorem act_brightness (b : BarItem) (icons : IconView) {op : BarItemOp}
    (h : ∀ value, op ≠ .settings (.setBrightness value)) :
    (b.act icons op).item.brightness? = b.brightness? := by
  cases b with
  | generic i =>
    cases op with
    | _ => rfl
  | settings s =>
    cases op with
    | mount surroundings =>
      change some (s.mount icons surroundings).1.brightness = _
      rw [s.mount_fst]
      rfl
    | click =>
      change some s.click.1.brightness = _
      rw [s.click_fst]
      rfl
    | settings op =>
      have hs : (s.act op).1.brightness = s.brightness :=
        s.act_brightness fun value hv => h value (congrArg _ hv)
      exact congrArg some hs
    | _ => rfl

end BarItem
end TemplateBar
