import TemplateBar.Proofs.Toolbar.Outcome

/-!
# Items that differ in what nobody sees

An item looks at its environment only when it is mounted, and a settings item is highlighted anew at
every render. Two items that differ in these alone are twins. They give the same outcomes and stay
twins, as long as a mount that succeeds finds the same icons and the same environment for both.
-/
namespace TemplateBar

namespace Item

/-- The item highlighted or not, with another environment for its next mount. -/
def supplied (i : Item) (active : Bool) (environment : Option (Dict String)) : Item :=
  { i with active, context := { i.context with environment } }

section

variable (i : Item) (active : Bool) {environment : Option (Dict String)}

theorem mount_supplied {icons icons' : IconView}
    (h : i.state = .unmounted → icons' = icons ∧ environment = i.context.environment)
    (surroundings : Dict String) :
    (i.supplied active environment).mount icons' surroundings =
      ((i.mount icons surroundings).1.supplied active environment,
        (i.mount icons surroundings).2) := by
  by_cases hu : i.state = .unmounted
  · obtain ⟨rfl, rfl⟩ := h hu
    rw [mount_of_unmounted hu, mount_of_unmounted (i := i.supplied active _) hu]
    rfl
  · rw [mount_of_ne_unmounted hu, mount_of_ne_unmounted (i := i.supplied active environment) hu]
    rfl

variable (environment)

theorem unmount_supplied :
    (i.supplied active environment).unmount =
      (i.unmount.1.supplied active environment, i.unmount.2) := by
  have hl : (i.supplied active environment).lifecycle = i.lifecycle := rfl
  unfold unmount
  rw [hl]
  cases i.lifecycle.transition .unmounted <;> rfl

@[simp] theorem supplied_state : (i.supplied active environment).state = i.state := rfl

theorem click_supplied :
    (i.supplied active environment).click = (i.click.1.supplied active environment, i.click.2) := by
  unfold click
  rw [supplied_state]
  by_cases h : i.state = .active
  · rw [if_pos h, if_pos h]
    rfl
  · rw [if_neg h, if_neg h]

theorem store_supplied (trigger : RenderTrigger) :
    (i.supplied active environment).store trigger =
      (i.store trigger).supplied active environment := by
  cases trigger <;> rfl

@[simp] theorem store_active (trigger : RenderTrigger) : (i.store trigger).active = i.active := by
  cases trigger <;> rfl

theorem render_supplied :
    (i.supplied i.active environment).render =
      (i.render.1.supplied i.active environment, i.render.2) := by
  unfold render
  rw [supplied_state]
  by_cases h : i.state = .active
  · rw [if_pos h, if_pos h]
    have hview : (i.refreshScope.supplied i.active environment).view = i.refreshScope.view :=
      funext (view_congr rfl rfl rfl)
    exact congrArg (fun view => (_, i.icons.bind view)) hview
  · rw [if_neg h, if_neg h]

theorem apply_supplied (trigger : RenderTrigger) :
    (i.supplied i.active environment).apply trigger =
      ((i.apply trigger).1.supplied i.active environment, (i.apply trigger).2) := by
  have hr := (i.store trigger).render_supplied environment
  rw [store_active] at hr
  rw [apply, store_supplied]
  exact hr

end

/-- Only an operation of its own highlights an item. -/
theorem active_of_bare {i j : Item} (h : i.bare = j.bare) : i.active = j.active :=
  congrArg (·.active) h

end Item

namespace SettingsItem

variable (s : SettingsItem) (active : Bool) {environment : Option (Dict String)}

def supplied (s : SettingsItem) (active : Bool) (environment : Option (Dict String)) :
    SettingsItem :=
  { s with item := s.item.supplied active environment }

theorem mount_supplied {icons icons' : IconView}
    (h : s.item.state = .unmounted → icons' = icons ∧ environment = s.item.context.environment)
    (surroundings : Dict String) :
    (s.supplied active environment).mount icons' surroundings =
      ((s.mount icons surroundings).1.supplied active environment,
        (s.mount icons surroundings).2) := by
  have hm : (s.supplied active environment).item.mount icons' surroundings = _ :=
    s.item.mount_supplied active h surroundings
  simp only [mount, hm]
  rcases s.item.mount icons surroundings with ⟨item, e | ⟨⟩⟩ <;> rfl

variable (environment)

theorem unmount_supplied :
    (s.supplied active environment).unmount =
      (s.unmount.1.supplied active environment, s.unmount.2) := by
  have hm : (s.supplied active environment).item.unmount = _ :=
    s.item.unmount_supplied active environment
  simp only [unmount, hm]
  rfl

/-- Rendering highlights the item anew. -/
theorem apply_supplied (trigger : RenderTrigger) :
    (s.supplied active environment).apply trigger =
      ((s.apply trigger).1.supplied s.isOpen environment, (s.apply trigger).2) := by
  have ha : ((s.supplied active environment).item.setActive s.isOpen).apply trigger = _ :=
    (s.item.setActive s.isOpen).apply_supplied environment trigger
  have hopen : (s.supplied active environment).isOpen = s.isOpen := rfl
  simp only [apply, hopen, ha]
  rfl

theorem setOpen_supplied (isOpen : Bool) :
    (s.supplied active environment).setOpen isOpen =
      ((s.setOpen isOpen).1.supplied active environment, (s.setOpen isOpen).2) := by
  have hopen : (s.supplied active environment).isOpen = s.isOpen := rfl
  unfold setOpen
  rw [hopen]
  split <;> rfl

theorem click_supplied :
    (s.supplied active environment).click =
      (s.click.1.supplied active environment, s.click.2) := by
  have hs : (s.supplied active environment).setOpen (!(s.supplied active environment).isOpen) = _ :=
    s.setOpen_supplied active environment !s.isOpen
  have hc : ((s.setOpen !s.isOpen).1.supplied active environment).item.click = _ :=
    (s.setOpen !s.isOpen).1.item.click_supplied active environment
  simp only [click, hs, hc]
  rfl

theorem act_supplied (op : SettingsOp) :
    (s.supplied active environment).act op =
      ((s.act op).1.supplied active environment, (s.act op).2) := by
  cases op with
  | setOpen isOpen => exact s.setOpen_supplied active environment isOpen
  | blur => exact s.setOpen_supplied active environment false
  | refreshBrightness | setBrightness value | press command => rfl

theorem receive_supplied (ticket : MountTicket) (answer : Except ActionError Brightness) :
    (s.supplied active environment).receive ticket answer =
      (s.receive ticket answer).supplied active environment := by
  have hl : (s.supplied active environment).item.lifecycle = s.item.lifecycle := rfl
  unfold receive
  cases answer with
  | ok brightness =>
    dsimp only
    rw [hl]
    split <;> rfl
  | error e => rfl

end SettingsItem

namespace BarItem

/-- The second item differs from the first in the environment for its next mount and, if it is the
settings item, in being highlighted. -/
inductive Twin : BarItem → BarItem → Prop
  | plain {i : Item} {active : Bool} (same : active = i.active)
      (environment : Option (Dict String)) :
      Twin (.generic i) (.generic (i.supplied active environment))
  | withPanel (s : SettingsItem) (active : Bool) (environment : Option (Dict String)) :
      Twin (.settings s) (.settings (s.supplied active environment))

variable {b b' : BarItem} {icons icons' : IconView}

theorem Twin.refl : (b : BarItem) → Twin b b
  | .generic i => .plain (i := i) rfl i.context.environment
  | .settings s => .withPanel s s.item.active s.item.context.environment

theorem Twin.setEnvironment (h : Twin b b') (environment : Dict String) :
    Twin b (b'.mapItem (Item.setEnvironment · environment)) := by
  cases h with
  | plain same _ => exact .plain same (some environment)
  | withPanel s active _ => exact .withPanel s active (some environment)

theorem begins_of_unmounted (h : b.item.state = .unmounted) (icons : IconView)
    (surroundings : Dict String) : b.begins icons (.mount surroundings) = true := by
  cases b with
  | generic i => exact congrArg (·.2.isOk) (Item.mount_of_unmounted h icons surroundings)
  | settings s =>
    refine (congrArg Except.isOk (s.mount_result icons surroundings)).trans ?_
    exact congrArg (·.2.isOk) (Item.mount_of_unmounted h icons surroundings)

theorem act_plain (i : Item) {environment : Option (Dict String)} (op : BarItemOp)
    (hbegins : (generic i).begins icons op = true →
      icons' = icons ∧ environment = i.context.environment) :
    ∃ item, Twin ((generic i).act icons op).item item ∧
      (generic (i.supplied i.active environment)).act icons' op =
        { (generic i).act icons op with item } := by
  cases op with
  | mount surroundings =>
    have hm := i.mount_supplied i.active
      (fun hu => hbegins (begins_of_unmounted (b := generic i) hu icons surroundings)) surroundings
    refine ⟨_, .plain (Item.active_of_bare (i.bare_mount icons surroundings)).symm environment, ?_⟩
    exact congrArg (fun r => ({ item := generic r.1, result := r.2 } : Reaction)) hm
  | unmount =>
    refine ⟨_, .plain (Item.active_of_bare i.bare_unmount).symm environment, ?_⟩
    exact congrArg (fun r => ({ item := generic r.1, result := r.2 } : Reaction))
      (i.unmount_supplied i.active environment)
  | apply trigger =>
    have hactive : (i.apply trigger).1.active = i.active :=
      (Item.active_of_bare (i.bare_apply trigger)).trans (i.store_active trigger)
    refine ⟨_, .plain hactive.symm environment, ?_⟩
    exact congrArg (fun r => ({ item := generic r.1, view := r.2 } : Reaction))
      (i.apply_supplied environment trigger)
  | click =>
    refine ⟨_, .plain (Item.active_of_bare i.bare_click).symm environment, ?_⟩
    exact congrArg (fun r => ({ item := generic r.1, tasks := r.2 } : Reaction))
      (i.click_supplied i.active environment)
  | setActive active => exact ⟨_, .plain (i := i.setActive active) rfl environment, rfl⟩
  | setEnvironment environment =>
    exact ⟨_, .plain (i := i.setEnvironment environment) rfl (some environment), rfl⟩
  | key name | settings op => exact ⟨_, .plain rfl environment, rfl⟩

theorem act_withPanel (s : SettingsItem) (active : Bool) {environment : Option (Dict String)}
    (op : BarItemOp)
    (hbegins : (settings s).begins icons op = true →
      icons' = icons ∧ environment = s.item.context.environment) :
    ∃ item, Twin ((settings s).act icons op).item item ∧
      (settings (s.supplied active environment)).act icons' op =
        { (settings s).act icons op with item } := by
  cases op with
  | mount surroundings =>
    have hm := s.mount_supplied active
      (fun hu => hbegins (begins_of_unmounted (b := settings s) hu icons surroundings)) surroundings
    refine ⟨_, .withPanel _ active environment, ?_⟩
    exact congrArg
      (fun r => ({ item := settings r.1, result := r.2.1, tasks := r.2.2 } : Reaction)) hm
  | unmount =>
    refine ⟨_, .withPanel _ active environment, ?_⟩
    exact congrArg (fun r => ({ item := settings r.1, result := r.2 } : Reaction))
      (s.unmount_supplied active environment)
  | apply trigger =>
    refine ⟨_, .withPanel _ s.isOpen environment, ?_⟩
    exact congrArg (fun r => ({ item := settings r.1, view := r.2 } : Reaction))
      (s.apply_supplied active environment trigger)
  | click =>
    refine ⟨_, .withPanel _ active environment, ?_⟩
    exact congrArg (fun r => ({ item := settings r.1, tasks := r.2 } : Reaction))
      (s.click_supplied active environment)
  | setActive active =>
    exact ⟨_, .withPanel { s with item := s.item.setActive active } active environment, rfl⟩
  | setEnvironment environment =>
    exact ⟨_, .withPanel { s with item := s.item.setEnvironment environment } active
      (some environment), rfl⟩
  | key name => exact ⟨_, .withPanel s active environment, rfl⟩
  | settings op =>
    refine ⟨_, .withPanel _ active environment, ?_⟩
    exact congrArg (fun r => ({ item := settings r.1, tasks := r.2 } : Reaction))
      (s.act_supplied active environment op)

/-- What an operation does, it does to a twin. -/
theorem Twin.act (h : Twin b b') (op : BarItemOp)
    (hbegins : b.begins icons op = true →
      icons' = icons ∧ b'.item.context.environment = b.item.context.environment) :
    ∃ item, Twin (b.act icons op).item item ∧ b'.act icons' op = { b.act icons op with item } := by
  cases h with
  | @plain i active same environment =>
    subst same
    exact act_plain i op hbegins
  | withPanel s active environment => exact act_withPanel s active op hbegins

theorem Twin.runTask (h : Twin b b') (host : Host) (task : HostTask) :
    Twin (b.runTask host task).1 (b'.runTask host task).1 := by
  cases task with
  | call c => exact h
  | queryBrightness id ticket =>
    cases h with
    | plain same environment => exact .plain same environment
    | withPanel s active environment =>
      have hr := s.receive_supplied active environment ticket host.fetchBrightness.1
      change Twin (settings (s.receive ticket _))
        (settings ((s.supplied active environment).receive ticket _))
      rw [hr]
      exact .withPanel _ active environment

end BarItem

namespace LoneItem

/-- The items are twins, and all else is the same but for the catalog and for what showed so far. -/
structure Twin (l l' : LoneItem) : Prop where
  item : l.item.Twin l'.item
  host : l'.host = l.host
  pending : l'.pending = l.pending
  mounts : l'.mounts = l.mounts

variable {l l' : LoneItem}

theorem Twin.refl (l : LoneItem) : l.Twin l := ⟨.refl l.item, rfl, rfl, rfl⟩

theorem Twin.sight (h : l.Twin l') : l'.sight = l.sight := by
  obtain ⟨item, catalog, host, pending, mounts, events⟩ := l
  obtain ⟨item', catalog', host', pending', mounts', events'⟩ := l'
  obtain ⟨hitem, rfl, rfl, rfl⟩ := h
  cases hitem <;> rfl

/-- The operation is a mount that succeeds. -/
def Begins (l : LoneItem) : LoneOp → Prop
  | .item op => l.item.begins l.catalog.snapshot.1 op = true
  | _ => False

/-- What the next mount captures is the same for both. -/
structure SameSupply (l l' : LoneItem) : Prop where
  icons : l'.catalog.snapshot.1 = l.catalog.snapshot.1
  environment : l'.item.item.context.environment = l.item.item.context.environment

theorem Twin.act (h : l.Twin l') (op : BarItemOp)
    (hbegins : l.Begins (.item op) → l.SameSupply l') :
    l'.reaction (.item op) =
        { l.reaction (.item op) with item := (l'.reaction (.item op)).item } ∧
      (l.act op).Twin (l'.act op) := by
  obtain ⟨item, hitem, hreaction⟩ := h.item.act op fun hb =>
    ⟨(hbegins hb).icons, (hbegins hb).environment⟩
  have hr : l'.reaction (.item op) = { l.reaction (.item op) with item } := hreaction
  have hb : l'.item.begins l'.catalog.snapshot.1 op = l.item.begins l.catalog.snapshot.1 op := by
    cases op with
    | mount surroundings => exact congrArg (·.result.isOk) hreaction
    | _ => rfl
  have hmounts : l'.mountsAfter op = l.mountsAfter op := by
    rw [mountsAfter, mountsAfter, h.mounts, hb]
  refine ⟨by rw [hr], ?_, h.host, ?_, hmounts⟩
  · exact (congrArg (BarItem.Twin _) (congrArg Reaction.item hreaction)).mpr hitem
  · change l'.pending ++ (l'.item.act _ op).tasks.map _ = l.pending ++ (l.item.act _ op).tasks.map _
    rw [h.pending, hreaction, hmounts]

theorem Twin.runTask (h : l.Twin l') (n : Nat) : (l.runTask n).Twin (l'.runTask n) := by
  have hpending := h.pending
  unfold LoneItem.runTask
  rw [h.pending]
  cases hp : l.pending[n]? with
  | none => exact h
  | some p =>
    rw [h.host]
    refine ⟨h.item.runTask l.host p.task, ?_, rfl, h.mounts⟩
    exact (l'.item.runTask_snd l.host p.task).trans (l.item.runTask_snd l.host p.task).symm

/-- Twins give the same outcomes and stay twins. -/
theorem Twin.step (h : l.Twin l') (op : LoneOp) (hbegins : l.Begins op → l.SameSupply l') :
    l'.outcome op = l.outcome op ∧ (l.step op).Twin (l'.step op) := by
  have of_same (hreaction : l'.reaction op = { l.reaction op with item := (l'.reaction op).item })
      (hnext : (l.step op).Twin (l'.step op)) :
      l'.outcome op = l.outcome op ∧ (l.step op).Twin (l'.step op) := by
    refine ⟨?_, hnext⟩
    rw [outcome, hreaction, h.sight, hnext.sight]
    rfl
  cases op with
  | item op =>
    obtain ⟨hreaction, hnext⟩ := h.act op hbegins
    exact of_same hreaction hnext
  | registerIcon name glyph =>
    refine of_same ?_ ⟨h.item, h.host, h.pending, h.mounts⟩
    -- Whether a name is refused does not depend on the catalog.
    simp only [reaction, IconCatalog.register]
    cases isIconName name <;> rfl
  | answerWith brightness script =>
    have hhost := congrArg (fun host : Host => { host with brightness, script }) h.host
    exact of_same rfl ⟨h.item, hhost, h.pending, h.mounts⟩
  | runTask n => exact of_same rfl (h.runTask n)

end LoneItem

end TemplateBar
