import TemplateBar.Proofs.Toolbar.Items
import TemplateBar.Proofs.Toolbar.Panel

/-!
# Templates that do not compile

An item whose templates do not compile does what it would do without them. Its definition is kept as
it was given, though, and a click template makes an item clickable by being there: a plain item with
a broken click template shows itself clickable, and without it it would not.
-/
namespace TemplateBar

open Text (isAllBlank)

namespace CompiledTemplate

/-- The source compiles where expressions may nest so deep. -/
def compiles (maxDepth : Nat) (source : String) : Bool := (compile source maxDepth).isOk

theorem toOption_of_not_compiles {maxDepth : Nat} {source : String}
    (h : compiles maxDepth source = false) : (compile source maxDepth).toOption = none := by
  unfold compiles at h
  cases hc : compile source maxDepth with
  | ok t => rw [hc] at h; cases h
  | error e => rfl

end CompiledTemplate

open CompiledTemplate (compiles)

/-- The definition with nothing in place of the templates that do not compile. -/
def ModuleDefinition.degraded (d : ModuleDefinition) (maxDepth : Nat) : ModuleDefinition :=
  { d with
    template := if compiles maxDepth d.template then d.template else ""
    tooltip := d.tooltip.filter (compiles maxDepth)
    onClick := d.onClick.filter (compiles maxDepth) }

namespace Item

theorem compileSource_empty (maxDepth : Nat) (source : String) :
    (compileSource (.empty maxDepth) (some source)).1 =
      if isAllBlank source then none
      else (CompiledTemplate.compile source maxDepth).toOption := by
  unfold compileSource
  dsimp only
  split <;> rfl

theorem compileSource_of_not_compiles {maxDepth : Nat} {source : String}
    (h : compiles maxDepth source = false) :
    (compileSource (.empty maxDepth) (some source)).1 = none := by
  rw [compileSource_empty, CompiledTemplate.toOption_of_not_compiles h, ite_self]

theorem compileSource_filter (maxDepth : Nat) (source : Option String) :
    (compileSource (.empty maxDepth) (source.filter (compiles maxDepth))).1 =
      (compileSource (.empty maxDepth) source).1 := by
  cases source with
  | none => rfl
  | some s =>
    cases hs : compiles maxDepth s with
    | true => rw [Option.filter_some, if_pos hs]
    | false =>
      rw [Option.filter_some, if_neg (by simp [hs]), compileSource_of_not_compiles hs]
      rfl

theorem compileSource_blank (maxDepth : Nat) (source : String) :
    (compileSource (.empty maxDepth)
      (some (if compiles maxDepth source then source else ""))).1 =
      (compileSource (.empty maxDepth) (some source)).1 := by
  cases hs : compiles maxDepth source with
  | true => rfl
  | false =>
    rw [compileSource_of_not_compiles hs]
    rfl

/-- The same item by another definition. -/
def redefined (i : Item) (d : ModuleDefinition) : Item := { i with definition := d }

theorem create_degraded (d : ModuleDefinition) (context : ItemContext)
    {cache cache' : TemplateCache} {maxDepth : Nat} (h : cache.Faithful) (h' : cache'.Faithful)
    (hd : cache.maxDepth = maxDepth) (hd' : cache'.maxDepth = maxDepth) :
    (create (d.degraded maxDepth) context cache').1 =
      (create d context cache).1.redefined (d.degraded maxDepth) := by
  obtain ⟨h₁, d₁⟩ := compileSource_snd h (some d.template)
  obtain ⟨h₂, d₂⟩ := compileSource_snd h₁ d.tooltip
  obtain ⟨h₁', d₁'⟩ := compileSource_snd h' (some (d.degraded maxDepth).template)
  obtain ⟨h₂', d₂'⟩ := compileSource_snd h₁' (d.degraded maxDepth).tooltip
  simp only [create, redefined]
  rw [compileSource_fst h, compileSource_fst h₁, compileSource_fst h₂, compileSource_fst h',
    compileSource_fst h₁', compileSource_fst h₂', d₂, d₂', d₁, d₁', hd, hd']
  congr 1
  · exact compileSource_blank maxDepth d.template
  · exact compileSource_filter maxDepth d.tooltip
  · exact compileSource_filter maxDepth d.onClick

section

variable (i : Item) (d : ModuleDefinition)

theorem mount_redefined (icons : IconView) (surroundings : Dict String) :
    (i.redefined d).mount icons surroundings =
      ((i.mount icons surroundings).1.redefined d, (i.mount icons surroundings).2) := by
  by_cases h : i.state = .unmounted
  · rw [mount_of_unmounted h, mount_of_unmounted (i := i.redefined d) h]
    rfl
  · rw [mount_of_ne_unmounted h, mount_of_ne_unmounted (i := i.redefined d) h]
    rfl

theorem unmount_redefined :
    (i.redefined d).unmount = (i.unmount.1.redefined d, i.unmount.2) := by
  have hl : (i.redefined d).lifecycle = i.lifecycle := rfl
  unfold unmount
  rw [hl]
  cases i.lifecycle.transition .unmounted <;> rfl

@[simp] theorem redefined_state : (i.redefined d).state = i.state := rfl

theorem store_redefined (trigger : RenderTrigger) :
    (i.redefined d).store trigger = (i.store trigger).redefined d := by
  cases trigger <;> rfl

theorem view_redefined (hid : d.id = i.id) (hstyle : d.style = i.definition.style)
    (icons : IconView) :
    (i.redefined d).view icons =
      (i.view icons).map fun v => { v with clickable := (i.redefined d).isClickable } := by
  have hnodes : ∀ t, (i.redefined d).templateNodes t icons = i.templateNodes t icons := fun _ => rfl
  have hcontent : (i.redefined d).content = i.content := rfl
  have htooltip : (i.redefined d).tooltip = i.tooltip := rfl
  have hactive : (i.redefined d).active = i.active := rfl
  have hid' : (i.redefined d).id = i.id := hid
  have hstyle' : (i.redefined d).definition.style = i.definition.style := hstyle
  simp only [view, hnodes, hcontent, htooltip, hactive, hid', hstyle']
  split <;> rfl

@[simp] theorem store_definition (trigger : RenderTrigger) :
    (i.store trigger).definition = i.definition := by
  cases trigger <;> rfl

theorem store_isClickable (trigger : RenderTrigger) :
    (i.store trigger).isClickable = i.isClickable := by
  cases trigger <;> rfl

theorem apply_redefined (hid : d.id = i.id) (hstyle : d.style = i.definition.style)
    (trigger : RenderTrigger) :
    (i.redefined d).apply trigger =
      ((i.apply trigger).1.redefined d, (i.apply trigger).2.map fun v =>
        { v with clickable := (i.redefined d).isClickable }) := by
  have hview : ∀ icons, ((i.store trigger).refreshScope.redefined d).view icons =
      ((i.store trigger).refreshScope.view icons).map fun v =>
        { v with clickable := ((i.store trigger).redefined d).isClickable } := by
    refine view_redefined _ d (hid.trans ?_) (hstyle.trans ?_)
    · exact congrArg ModuleDefinition.id (i.store_definition trigger).symm
    · exact congrArg ModuleDefinition.style (i.store_definition trigger).symm
  rw [← store_redefined, store_isClickable] at hview
  simp only [apply, store_redefined, render, redefined_state]
  by_cases h : (i.store trigger).state = .active
  · rw [if_pos h, if_pos h]
    refine Prod.ext rfl ?_
    change (i.store trigger).icons.bind ((i.store trigger).refreshScope.redefined d).view =
      ((i.store trigger).icons.bind (i.store trigger).refreshScope.view).map _
    cases (i.store trigger).icons with
    | none => rfl
    | some icons => exact hview icons
  · rw [if_neg h, if_neg h]
    rfl

/-- Every view says whether the item is clickable. -/
theorem clickable_of_view {icons : IconView} {v : ItemView} (h : i.view icons = some v) :
    v.clickable = i.isClickable := by
  unfold view at h
  dsimp only at h
  split at h
  · cases h
  · cases h
    rfl

theorem clickable_of_apply {trigger : RenderTrigger} {v : ItemView}
    (h : (i.apply trigger).2 = some v) : v.clickable = i.isClickable := by
  unfold apply render at h
  split at h
  · obtain ⟨icons, -, hv⟩ := Option.bind_eq_some_iff.mp h
    rw [clickable_of_view _ hv, ← i.store_isClickable trigger]
    rfl
  · cases h

theorem click_redefined :
    (i.redefined d).click = (i.click.1.redefined d, i.click.2) := by
  unfold click
  rw [redefined_state]
  by_cases h : i.state = .active
  · rw [if_pos h, if_pos h]
    rfl
  · rw [if_neg h, if_neg h]

end

end Item

namespace SettingsItem

variable (s : SettingsItem) (d : ModuleDefinition)

def redefined (s : SettingsItem) (d : ModuleDefinition) : SettingsItem :=
  { s with item := s.item.redefined d }

theorem refreshBrightness_redefined (hid : d.id = s.item.id) :
    (s.redefined d).refreshBrightness = s.refreshBrightness := by
  have hid' : (s.redefined d).item.id = s.item.id := hid
  unfold refreshBrightness
  rw [hid']
  rfl

theorem mount_redefined (hid : d.id = s.item.id) (icons : IconView) (surroundings : Dict String) :
    (s.redefined d).mount icons surroundings =
      ((s.mount icons surroundings).1.redefined d, (s.mount icons surroundings).2) := by
  have hm : (s.redefined d).item.mount icons surroundings = _ :=
    s.item.mount_redefined d icons surroundings
  have hitem : (s.item.mount icons surroundings).1.id = s.item.id :=
    congrArg (·.definition.id) (s.item.step_setup (.mount icons surroundings))
  simp only [mount, hm]
  rcases hr : s.item.mount icons surroundings with ⟨item, e | ⟨⟩⟩
  · rfl
  · rw [hr] at hitem
    have hqueries := refreshBrightness_redefined { s with item } d (hid.trans hitem.symm)
    exact Prod.ext rfl (Prod.ext rfl hqueries)

theorem unmount_redefined : (s.redefined d).unmount = (s.unmount.1.redefined d, s.unmount.2) := by
  have hm : (s.redefined d).item.unmount = _ := s.item.unmount_redefined d
  simp only [unmount, hm]
  rfl

theorem apply_redefined (hid : d.id = s.item.id) (hstyle : d.style = s.item.definition.style)
    (trigger : RenderTrigger) :
    (s.redefined d).apply trigger =
      ((s.apply trigger).1.redefined d,
        (s.apply trigger).2.map fun v => { v with clickable := true }) := by
  have ha : ((s.redefined d).item.setActive (s.redefined d).isOpen).apply trigger = _ :=
    (s.item.setActive s.isOpen).apply_redefined d hid hstyle trigger
  simp only [apply, ha, Option.map_map]
  rfl

theorem setOpen_redefined (hid : d.id = s.item.id) (isOpen : Bool) :
    (s.redefined d).setOpen isOpen =
      ((s.setOpen isOpen).1.redefined d, (s.setOpen isOpen).2) := by
  have hopen : (s.redefined d).isOpen = s.isOpen := rfl
  unfold setOpen
  rw [hopen]
  split
  · rfl
  · exact congrArg (_, ·) (refreshBrightness_redefined { s with isOpen } d hid)

theorem click_redefined (hid : d.id = s.item.id) :
    (s.redefined d).click = (s.click.1.redefined d, s.click.2) := by
  have hs : (s.redefined d).setOpen (!(s.redefined d).isOpen) = _ :=
    s.setOpen_redefined d hid !s.isOpen
  have hc : ((s.setOpen !s.isOpen).1.redefined d).item.click = _ :=
    (s.setOpen !s.isOpen).1.item.click_redefined d
  simp only [click, hs, hc]
  rfl

theorem act_redefined (hid : d.id = s.item.id) (op : SettingsOp) :
    (s.redefined d).act op = ((s.act op).1.redefined d, (s.act op).2) := by
  cases op with
  | setOpen isOpen => exact s.setOpen_redefined d hid isOpen
  | blur => exact s.setOpen_redefined d hid false
  | refreshBrightness => exact congrArg (_, ·) (s.refreshBrightness_redefined d hid)
  | setBrightness value => rfl
  | press command => rfl

end SettingsItem

namespace BarItem

variable (b : BarItem) (d : ModuleDefinition)

def redefined (b : BarItem) (d : ModuleDefinition) : BarItem := b.mapItem (·.redefined d)

/-- What the views of an item say of it. -/
def isClickable : BarItem → Bool
  | generic i => i.isClickable
  | settings _ => true

theorem clickable_of_act {icons : IconView} {op : BarItemOp} {v : ItemView}
    (h : (b.act icons op).view = some v) : v.clickable = b.isClickable := by
  cases op with
  | apply trigger =>
    cases b with
    | generic i => exact i.clickable_of_apply h
    | settings s =>
      obtain ⟨w, -, rfl⟩ := Option.map_eq_some_iff.mp h
      rfl
  | settings op => cases b <;> cases h
  | _ => cases h

theorem act_isClickable (icons : IconView) (op : BarItemOp) :
    (b.act icons op).item.isClickable = b.isClickable := by
  have hsetup := congrArg Item.isClickable (b.act_setup icons op)
  cases b with
  | generic i => cases op <;> exact hsetup
  | settings s => cases op <;> rfl

/-- An item by another definition with the same id and style does the same and shows the same, but
for what makes it clickable. -/
theorem act_redefined (hid : d.id = b.id) (hstyle : d.style = b.item.definition.style)
    (icons : IconView) (op : BarItemOp) :
    (b.redefined d).act icons op =
      { b.act icons op with
        item := (b.act icons op).item.redefined d
        view := (b.act icons op).view.map fun v =>
          { v with clickable := (b.redefined d).isClickable } } := by
  cases b with
  | generic i =>
    cases op with
    | mount surroundings =>
      exact congrArg (fun r => ({ item := generic r.1, result := r.2 } : Reaction))
        (i.mount_redefined d icons surroundings)
    | unmount =>
      exact congrArg (fun r => ({ item := generic r.1, result := r.2 } : Reaction))
        (i.unmount_redefined d)
    | apply trigger =>
      exact congrArg (fun r => ({ item := generic r.1, view := r.2 } : Reaction))
        (i.apply_redefined d hid hstyle trigger)
    | click =>
      exact congrArg (fun r => ({ item := generic r.1, tasks := r.2 } : Reaction))
        (i.click_redefined d)
    | key name | setActive active | setEnvironment environment | settings op => rfl
  | settings s =>
    cases op with
    | mount surroundings =>
      exact congrArg (fun r => ({ item := settings r.1, result := r.2.1, tasks := r.2.2 } : Reaction))
        (s.mount_redefined d hid icons surroundings)
    | unmount =>
      exact congrArg (fun r => ({ item := settings r.1, result := r.2 } : Reaction))
        (s.unmount_redefined d)
    | apply trigger =>
      exact congrArg (fun r => ({ item := settings r.1, view := r.2 } : Reaction))
        (s.apply_redefined d hid hstyle trigger)
    | click =>
      exact congrArg (fun r => ({ item := settings r.1, tasks := r.2 } : Reaction))
        (s.click_redefined d hid)
    | key name | setActive active | setEnvironment environment => rfl
    | settings op =>
      exact congrArg (fun r => ({ item := settings r.1, tasks := r.2 } : Reaction))
        (s.act_redefined d hid op)

theorem receive_redefined (ticket : MountTicket) (answer : Except ActionError Brightness) :
    (b.redefined d).receive ticket answer = (b.receive ticket answer).redefined d := by
  cases b with
  | generic i => rfl
  | settings s =>
    change settings ((s.redefined d).receive ticket answer) =
      settings ((s.receive ticket answer).redefined d)
    have hl : (s.redefined d).item.lifecycle = s.item.lifecycle := rfl
    unfold SettingsItem.receive
    cases answer with
    | ok brightness =>
      dsimp only
      rw [hl]
      split <;> rfl
    | error e => rfl

theorem runTask_redefined (host : Host) (task : HostTask) :
    (b.redefined d).runTask host task =
      ((b.runTask host task).1.redefined d, (b.runTask host task).2) := by
  cases task with
  | call c => rfl
  | queryBrightness id ticket =>
    exact congrArg (·, host.fetchBrightness.2) (b.receive_redefined d ticket _)

theorem runTask_isClickable (host : Host) (task : HostTask) :
    (b.runTask host task).1.isClickable = b.isClickable := by
  cases b with
  | generic i => cases task <;> rfl
  | settings s => cases task <;> rfl

end BarItem

namespace ItemEvent

def withClickable (clickable : Bool) : ItemEvent → ItemEvent
  | shown view => shown { view with clickable }
  | e => e

def view? : ItemEvent → Option ItemView
  | shown view => some view
  | _ => none

theorem map_withClickable {clickable : Bool} {es : List ItemEvent}
    (h : ∀ v, .shown v ∈ es → v.clickable = clickable) :
    es.map (.withClickable clickable) = es := by
  refine (List.map_congr_left fun e he => ?_).trans (List.map_id es)
  cases e with
  | shown v => rw [withClickable, ← h v he]; rfl
  | tookKey name => rfl
  | left task => rfl
  | called call => rfl

end ItemEvent

theorem Reaction.events_withClickable (r : Reaction) (item : BarItem) (clickable : Bool) :
    ({ r with item, view := r.view.map fun v => { v with clickable } } : Reaction).events =
      r.events.map (.withClickable clickable) := by
  simp only [Reaction.events, List.map_append, List.map_map]
  cases r.view <;> rfl

namespace LoneItem

variable {l : LoneItem} {d : ModuleDefinition} {clickable : Bool}

/-- The item by another definition, with what its views would say of it then. -/
def redefined (l : LoneItem) (d : ModuleDefinition) (clickable : Bool) : LoneItem :=
  { l with item := l.item.redefined d, events := l.events.map (.withClickable clickable) }

/-- By the other definition the item has the same id and style, and is clickable or not. -/
structure Alike (l : LoneItem) (d : ModuleDefinition) (clickable : Bool) : Prop where
  id : d.id = l.item.id
  style : d.style = l.item.item.definition.style
  clickable : (l.item.redefined d).isClickable = clickable

theorem step_isClickable (l : LoneItem) (op : LoneOp) :
    (l.step op).item.isClickable = l.item.isClickable := by
  cases op with
  | item op => exact l.item.act_isClickable _ op
  | registerIcon name glyph => rfl
  | answerWith brightness script => rfl
  | runTask n => exact runTask_item_congr BarItem.isClickable l.item.runTask_isClickable n

theorem step_definition (l : LoneItem) (op : LoneOp) :
    (l.step op).item.item.definition = l.item.item.definition := by
  cases op with
  | item op => exact congrArg (·.definition) (l.item.act_setup l.catalog.snapshot.1 op)
  | registerIcon name glyph => rfl
  | answerWith brightness script => rfl
  | runTask n => exact congrArg (·.definition) (l.item_runTask n)

theorem Alike.act_redefined (h : l.Alike d clickable) (op : BarItemOp) :
    (l.redefined d clickable).act op = (l.act op).redefined d clickable := by
  have hr : (l.redefined d clickable).item.act (l.redefined d clickable).catalog.snapshot.1 op = _ :=
    l.item.act_redefined d h.id h.style l.catalog.snapshot.1 op
  rw [h.clickable] at hr
  have hbegins : (l.item.redefined d).begins l.catalog.snapshot.1 op =
      l.item.begins l.catalog.snapshot.1 op := by
    cases op with
    | mount surroundings => exact congrArg (·.result.isOk) hr
    | _ => rfl
  have hmounts : (l.redefined d clickable).mountsAfter op = l.mountsAfter op :=
    congrArg (fun b : Bool => l.mounts + if b then 1 else 0) hbegins
  simp only [LoneItem.act, hr, hmounts, Reaction.events_withClickable]
  simp only [redefined, List.map_append]

theorem runTask_redefined (l : LoneItem) (d : ModuleDefinition) (clickable : Bool) (n : Nat) :
    (l.redefined d clickable).runTask n = (l.runTask n).redefined d clickable := by
  have hpending : (l.redefined d clickable).pending = l.pending := rfl
  cases hp : l.pending[n]? with
  | none => rw [runTask_of_none hp, runTask_of_none (hpending ▸ hp)]
  | some p =>
    have hr : (l.redefined d clickable).item.runTask (l.redefined d clickable).host p.task = _ :=
      l.item.runTask_redefined d l.host p.task
    simp only [LoneItem.runTask, hpending, hp, hr]
    simp only [redefined, List.map_append, List.map_map]
    rfl

theorem Alike.step_redefined (h : l.Alike d clickable) (op : LoneOp) :
    (l.redefined d clickable).step op = (l.step op).redefined d clickable := by
  cases op with
  | item op => exact h.act_redefined op
  | registerIcon name glyph => rfl
  | answerWith brightness script => rfl
  | runTask n => exact l.runTask_redefined d clickable n

theorem Alike.step (h : l.Alike d clickable) (op : LoneOp) : (l.step op).Alike d clickable where
  id := h.id.trans (congrArg ModuleDefinition.id (l.step_definition op)).symm
  style := h.style.trans (congrArg ModuleDefinition.style (l.step_definition op)).symm
  clickable := by
    rw [← h.clickable]
    change ((l.step op).redefined d clickable).item.isClickable =
      (l.redefined d clickable).item.isClickable
    rw [← h.step_redefined op]
    exact step_isClickable _ op

theorem Alike.run_redefined (h : l.Alike d clickable) (ops : List LoneOp) :
    (l.redefined d clickable).run ops = (l.run ops).redefined d clickable := by
  induction ops generalizing l with
  | nil => rfl
  | cons op ops ih =>
    rw [run_cons, run_cons, h.step_redefined op]
    exact ih (h.step op)

theorem shown_step (h : ∀ v, .shown v ∈ l.events → v.clickable = l.item.isClickable)
    (op : LoneOp) : ∀ v, .shown v ∈ (l.step op).events → v.clickable = (l.step op).item.isClickable := by
  intro v hv
  rw [step_isClickable]
  cases op with
  | item op =>
    rcases List.mem_append.mp hv with hv | hv
    · exact h v hv
    · have hview : (l.item.act l.catalog.snapshot.1 op).view = some v := by
        simpa [Reaction.events] using hv
      exact l.item.clickable_of_act hview
  | registerIcon name glyph => exact h v hv
  | answerWith brightness script => exact h v hv
  | runTask n =>
    refine h v ?_
    cases hp : l.pending[n]? with
    | none => rwa [step, runTask_of_none hp] at hv
    | some p => simpa [step, LoneItem.runTask, hp] using hv

theorem shown_run (h : ∀ v, .shown v ∈ l.events → v.clickable = l.item.isClickable)
    (ops : List LoneOp) : ∀ v, .shown v ∈ (l.run ops).events → v.clickable = l.item.isClickable := by
  induction ops generalizing l with
  | nil => exact h
  | cons op ops ih =>
    rw [← l.step_isClickable op]
    exact ih (shown_step h op)

end LoneItem

/-- Nothing but a click template that does not compile makes a plain item clickable. -/
def ModuleDefinition.HasDeadClick (d : ModuleDefinition) (kind : ModuleKind) (clicks : Bool)
    (maxDepth : Nat) : Prop :=
  kind = .generic ∧ clicks = false ∧
    ∃ s, d.onClick = some s ∧ isAllBlank s = false ∧ compiles maxDepth s = false

namespace BarItem

section

variable {kind : ModuleKind} {d : ModuleDefinition} {context : ItemContext}
  {cache cache' : TemplateCache} {clicks keys : Bool} {maxDepth : Nat}

theorem fresh_degraded (h : cache.Faithful) (h' : cache'.Faithful) (hd : cache.maxDepth = maxDepth)
    (hd' : cache'.maxDepth = maxDepth) :
    fresh kind (d.degraded maxDepth) context cache' clicks keys =
      (fresh kind d context cache clicks keys).redefined (d.degraded maxDepth) := by
  have hc := Item.create_degraded d context h h' hd hd'
  cases kind with
  | generic => exact congrArg (fun i => generic (i.withHandlers clicks keys)) hc
  | settings => exact congrArg (fun i => settings (.create (i.withHandlers clicks keys))) hc

theorem isClickable_fresh :
    (fresh .generic d context cache clicks keys).isClickable =
      (d.onClick.any (fun s => !isAllBlank s) || clicks) := rfl

theorem isClickable_redefined (e : ModuleDefinition) :
    ((fresh .generic d context cache clicks keys).redefined e).isClickable =
      (e.onClick.any (fun s => !isAllBlank s) || clicks) := rfl

theorem isClickable_of_dead (h : d.HasDeadClick kind clicks maxDepth) :
    (fresh kind d context cache clicks keys).isClickable = true ∧
      ((fresh kind d context cache clicks keys).redefined (d.degraded maxDepth)).isClickable =
        false := by
  obtain ⟨rfl, rfl, s, hs, hblank, hbroken⟩ := h
  have hdegraded : (d.degraded maxDepth).onClick = none := by
    simp [ModuleDefinition.degraded, hs, Option.filter_some, hbroken]
  rw [isClickable_redefined, isClickable_fresh, hdegraded, hs]
  simp [hblank]

theorem isClickable_of_not_dead (h : ¬d.HasDeadClick kind clicks maxDepth) :
    ((fresh kind d context cache clicks keys).redefined (d.degraded maxDepth)).isClickable =
      (fresh kind d context cache clicks keys).isClickable := by
  cases kind with
  | settings => rfl
  | generic =>
    rw [isClickable_redefined, isClickable_fresh]
    cases clicks with
    | true => simp
    | false =>
      cases hs : d.onClick with
      | none => simp [ModuleDefinition.degraded, hs]
      | some s =>
        -- A source that is there and does not compile can only be blank.
        cases hc : compiles maxDepth s with
        | true => simp [ModuleDefinition.degraded, hs, Option.filter_some, hc]
        | false =>
          have hblank : isAllBlank s = true := by
            by_contra hb
            exact h ⟨rfl, rfl, s, hs, by simpa using hb, hc⟩
          simp [ModuleDefinition.degraded, hs, Option.filter_some, hc, hblank]

end

@[simp] theorem redefined_panel? (b : BarItem) (d : ModuleDefinition) :
    (b.redefined d).panel? = b.panel? := by
  cases b <;> rfl

@[simp] theorem redefined_state (b : BarItem) (d : ModuleDefinition) :
    (b.redefined d).state = b.state := by
  cases b <;> rfl

end BarItem

namespace LoneItem

section

variable (definition : ModuleDefinition) (context : ItemContext) {cache cache' : TemplateCache}
  (h : cache.Faithful) (h' : cache'.Faithful)
  (hdepth : cache.maxDepth = context.limits.maxDepth)
  (hdepth' : cache'.maxDepth = context.limits.maxDepth)
  (kind : ModuleKind) (clicks keys : Bool) (catalog : IconCatalog) (host : Host)

include h h' hdepth hdepth'

/-- Without its templates that do not compile an item of either kind does the same: it has the same
state and panel, leaves the same tasks, makes the same calls and shows the same views. But a plain
item that only a click template makes clickable, which does not compile, shows itself clickable in
all its views, and without that template in none. -/
theorem run_degraded (ops : List LoneOp) :
    let degraded := definition.degraded context.limits.maxDepth
    let l := (start (.fresh kind definition context cache clicks keys) catalog host).run ops
    let l' := (start (.fresh kind degraded context cache' clicks keys) catalog host).run ops
    l'.item = l.item.redefined degraded ∧ l'.item.state = l.item.state ∧
    l'.item.panel? = l.item.panel? ∧ l'.pending = l.pending ∧ l'.mounts = l.mounts ∧
    l'.host = l.host ∧ l'.catalog = l.catalog ∧
    (¬definition.HasDeadClick kind clicks context.limits.maxDepth → l'.events = l.events) ∧
    (definition.HasDeadClick kind clicks context.limits.maxDepth →
      l'.events = l.events.map (.withClickable false) ∧
      ∀ v, .shown v ∈ l.events → v.clickable = true) := by
  intro degraded l l'
  let b : BarItem := .fresh kind definition context cache clicks keys
  have hid : degraded.id = b.id ∧ degraded.style = b.item.definition.style := by
    cases kind <;> exact ⟨rfl, rfl⟩
  have halike : (start b catalog host).Alike degraded (b.redefined degraded).isClickable :=
    ⟨hid.1, hid.2, rfl⟩
  have hl' : l' = l.redefined degraded (b.redefined degraded).isClickable := by
    rw [← halike.run_redefined ops]
    exact congrArg (fun b => (start b catalog host).run ops)
      (BarItem.fresh_degraded h h' hdepth hdepth')
  have hshown : ∀ v, .shown v ∈ l.events → v.clickable = b.isClickable :=
    shown_run (l := start b catalog host) (fun v hv => by cases hv) ops
  rw [hl']
  refine ⟨rfl, BarItem.redefined_state _ _, BarItem.redefined_panel? _ _, rfl, rfl, rfl, rfl,
    fun hlive => ?_, fun hdead => ?_⟩
  · refine ItemEvent.map_withClickable fun v hv => (hshown v hv).trans ?_
    exact (BarItem.isClickable_of_not_dead hlive).symm
  · obtain ⟨hclickable, hnot⟩ : b.isClickable = true ∧
        (b.redefined degraded).isClickable = false := BarItem.isClickable_of_dead hdead
    refine ⟨?_, fun v hv => (hshown v hv).trans hclickable⟩
    rw [← hnot]
    rfl

end

/-- A plain item by a definition, mounted and rendered. -/
def rendered (definition : ModuleDefinition) : LoneItem :=
  (start (.fresh .generic definition ⟨[], {}, some [], true⟩ (.empty 64) false false) .empty
    ⟨none, none, []⟩).run [.item (.mount []), .item (.apply .refresh)]

/-- A tooltip that does not compile makes no difference. -/
theorem run_degraded_brokenTooltip :
    ({ id := "a", template := "'x'", tooltip := some "1 +" } : ModuleDefinition).degraded 64 =
      { id := "a", template := "'x'" } ∧
    (rendered { id := "a", template := "'x'", tooltip := some "1 +" }).events.filterMap
      ItemEvent.view? = [⟨"a", [], false, false, [.text "x"], none⟩] ∧
    (rendered { id := "a", template := "'x'" }).events =
      (rendered { id := "a", template := "'x'", tooltip := some "1 +" }).events := by
  have hdegraded : ({ id := "a", template := "'x'", tooltip := some "1 +" } :
      ModuleDefinition).degraded 64 = { id := "a", template := "'x'" } := by decide +kernel
  obtain ⟨-, -, -, -, -, -, -, hlive, -⟩ := run_degraded
    { id := "a", template := "'x'", tooltip := some "1 +" } ⟨[], {}, some [], true⟩
    (TemplateCache.faithful_empty 64) (TemplateCache.faithful_empty 64) rfl rfl .generic false false
    .empty ⟨none, none, []⟩ [.item (.mount []), .item (.apply .refresh)]
  have hevents := hlive (by rintro ⟨-, -, s, hs, -⟩; cases hs)
  refine ⟨hdegraded, by decide +kernel, ?_⟩
  rw [← hdegraded]
  exact hevents

/-- A click template that does not compile makes an item clickable, and an absent one does not. -/
theorem clickable_of_brokenClick :
    ({ id := "a", template := "'x'", onClick := some "1 +" } : ModuleDefinition).degraded 64 =
      { id := "a", template := "'x'" } ∧
    (rendered { id := "a", template := "'x'", onClick := some "1 +" }).events.filterMap
      ItemEvent.view? = [⟨"a", [], true, false, [.text "x"], none⟩] ∧
    (rendered { id := "a", template := "'x'" }).events.filterMap ItemEvent.view? =
      [⟨"a", [], false, false, [.text "x"], none⟩] := by
  refine ⟨?_, ?_, ?_⟩ <;> decide +kernel

end LoneItem

end TemplateBar
