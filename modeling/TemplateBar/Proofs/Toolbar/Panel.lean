import Mathlib.Data.List.Infix
import TemplateBar.Proofs.Toolbar.Brightness

/-!
# The panel of a settings item

Clicks and openings reach a settings item in any state, so whether its panel is open follows from
the operations alone and says nothing about the mount: a panel that was opened too early stays open
through the mount. It is shown only while the item is active. Where every opening meets an active
item, the panel is open only while the item is active.
-/
namespace TemplateBar

namespace BarItem

/-- The panel is open; a plain item has none. -/
def isOpen (b : BarItem) : Bool := b.settings?.any (·.isOpen)

def panel? (b : BarItem) : Option SettingsPanel := b.settings?.bind SettingsItem.panel

end BarItem

/-- Whether the panel is open after an operation. -/
def SettingsOp.openAfter (wasOpen : Bool) : SettingsOp → Bool
  | .setOpen isOpen => isOpen
  | .blur => false
  | .refreshBrightness | .setBrightness _ | .press _ => wasOpen

def BarItemOp.openAfter (wasOpen : Bool) : BarItemOp → Bool
  | .unmount => false
  | .click => !wasOpen
  | .settings op => op.openAfter wasOpen
  | .mount _ | .apply _ | .key _ | .setActive _ | .setEnvironment _ => wasOpen

def LoneOp.openAfter (wasOpen : Bool) : LoneOp → Bool
  | .item op => op.openAfter wasOpen
  | .registerIcon _ _ | .answerWith _ _ | .runTask _ => wasOpen

/-- What an operation makes of the state. -/
def LoneOp.stateAfter (before : ItemState) : LoneOp → ItemState
  | .item (.mount _) => .active
  | .item .unmount => .unmounted
  | _ => before

theorem LoneOp.openAfter_false_iff {op : LoneOp} :
    op.openAfter false = true ↔ op = .item .click ∨ op = .item (.settings (.setOpen true)) := by
  cases op with
  | item op =>
    cases op with
    | settings op => cases op <;> simp [openAfter, BarItemOp.openAfter, SettingsOp.openAfter]
    | _ => simp [openAfter, BarItemOp.openAfter]
  | _ => simp [openAfter]

/-- Neither of the operations that open the panel moves the lifecycle. -/
theorem LoneOp.stateAfter_of_opens {op : LoneOp} (h : op.openAfter false = true)
    (before : ItemState) : op.stateAfter before = before := by
  rcases openAfter_false_iff.mp h with rfl | rfl <;> rfl

/-- A panel that stays open has not seen the item unmounted. -/
theorem LoneOp.stateAfter_active_of_open {op : LoneOp} (h : op.openAfter true = true) :
    op.stateAfter .active = .active := by
  cases op with
  | item op =>
    cases op with
    | unmount => cases h
    | _ => rfl
  | _ => rfl

namespace SettingsItem

variable (s : SettingsItem)

theorem act_isOpen (op : SettingsOp) : (s.act op).1.isOpen = op.openAfter s.isOpen := by
  cases op with
  | setOpen isOpen => rw [act, setOpen_fst]; rfl
  | blur => rw [act, blur, setOpen_fst]; rfl
  | refreshBrightness => rfl
  | setBrightness value => rfl
  | press command => rfl

theorem receive_isOpen (ticket : MountTicket) (answer : Except ActionError Brightness) :
    (s.receive ticket answer).isOpen = s.isOpen := by
  unfold receive
  split
  · split <;> rfl
  · rfl

theorem panel_isSome_iff (h : s.item.Captured) :
    s.panel.isSome = true ↔ s.isOpen = true ∧ s.item.state = .active := by
  unfold panel
  split
  · next hs => simpa [hs] using h.mpr hs.2
  · next hs => simpa using hs

end SettingsItem

namespace BarItem

variable {b : BarItem}

theorem act_isOpen (h : b.IsSettings) (icons : IconView) (op : BarItemOp) :
    (b.act icons op).item.isOpen = op.openAfter b.isOpen := by
  obtain ⟨s, rfl⟩ := h
  cases op with
  | mount surroundings =>
    change (s.mount icons surroundings).1.isOpen = s.isOpen
    rw [s.mount_fst]
  | click =>
    change s.click.1.isOpen = !s.isOpen
    rw [s.click_fst]
  | settings op => exact s.act_isOpen op
  | unmount | apply trigger | key name | setActive active | setEnvironment environment => rfl

theorem runTask_isOpen (h : b.IsSettings) (host : Host) (task : HostTask) :
    (b.runTask host task).1.isOpen = b.isOpen := by
  obtain ⟨s, rfl⟩ := h
  cases task with
  | call c => rfl
  | queryBrightness id ticket => exact s.receive_isOpen ticket _

theorem panel?_isSome_iff (h : b.item.Captured) :
    b.panel?.isSome = true ↔ b.isOpen = true ∧ b.state = .active := by
  cases b with
  | generic i => simp [panel?, isOpen, settings?]
  | settings s => exact s.panel_isSome_iff h

end BarItem

namespace LoneItem

variable {l : LoneItem}

theorem Ticketed.step_isOpen (h : l.Ticketed) (op : LoneOp) :
    (l.step op).item.isOpen = op.openAfter l.item.isOpen := by
  cases op with
  | item op => exact BarItem.act_isOpen h.settings _ op
  | registerIcon name glyph => rfl
  | answerWith brightness script => rfl
  | runTask n => exact runTask_item_congr BarItem.isOpen (BarItem.runTask_isOpen h.settings) n

theorem Ticketed.step_state (h : l.Ticketed) (op : LoneOp) :
    (l.step op).item.state = op.stateAfter l.item.state := by
  cases op with
  | item op =>
    refine (BarItem.act_state h.coherent _ op).trans ?_
    cases op <;> rfl
  | registerIcon name glyph => rfl
  | answerWith brightness script => rfl
  | runTask n => exact congrArg Item.state (l.item_runTask n)

theorem step_captured (hc : l.item.item.Captured) (h : l.Ticketed) (op : LoneOp) :
    (l.step op).item.item.Captured := by
  cases op with
  | item op =>
    change (l.item.act _ op).item.item.Captured
    rw [BarItem.act_item]
    exact hc.run h.coherent _
  | registerIcon name glyph => exact hc
  | answerWith brightness script => exact hc
  | runTask n => rwa [step, item_runTask]

theorem run_captured (hc : l.item.item.Captured) (h : l.Ticketed) (ops : List LoneOp) :
    (l.run ops).item.item.Captured := by
  induction ops generalizing l with
  | nil => exact hc
  | cons op ops ih => exact ih (step_captured hc h op) (h.step op)

theorem run_append_singleton (l : LoneItem) (ops : List LoneOp) (op : LoneOp) :
    l.run (ops ++ [op]) = (l.run ops).step op := l.run_append ops [op]

def OpenOnlyActive (l : LoneItem) : Prop := l.item.isOpen = true → l.item.state = .active

/-- The operation opens the closed panel. -/
def Opens (l : LoneItem) (op : LoneOp) : Prop :=
  l.item.isOpen = false ∧ (l.step op).item.isOpen = true

theorem Ticketed.opens_iff (h : l.Ticketed) (op : LoneOp) :
    l.Opens op ↔ l.item.isOpen = false ∧
      (op = .item .click ∨ op = .item (.settings (.setOpen true))) := by
  refine and_congr_right fun hclosed => ?_
  rw [h.step_isOpen, hclosed, LoneOp.openAfter_false_iff]

theorem Ticketed.openOnlyActive_step (h : l.Ticketed) {op : LoneOp} (ho : l.OpenOnlyActive)
    (hop : l.Opens op → l.item.state = .active) : (l.step op).OpenOnlyActive := by
  intro hopen
  have hafter := hopen
  rw [h.step_isOpen] at hafter
  rw [h.step_state]
  cases hb : l.item.isOpen with
  | true =>
    rw [hb] at hafter
    rw [ho hb]
    exact LoneOp.stateAfter_active_of_open hafter
  | false =>
    rw [hb] at hafter
    rw [LoneOp.stateAfter_of_opens hafter]
    exact hop ⟨hb, hopen⟩

/-- An opening leaves the state as it is. -/
theorem Ticketed.active_of_opens (h : l.Ticketed) {op : LoneOp} (hop : l.Opens op)
    (ho : (l.step op).OpenOnlyActive) : l.item.state = .active := by
  have hactive := ho hop.2
  rw [h.step_state] at hactive
  have hafter := hop.2
  rw [h.step_isOpen, hop.1] at hafter
  rwa [LoneOp.stateAfter_of_opens hafter] at hactive

/-- At every point of the run the panel is open only while the item is active. -/
def StaysOpenOnlyActive (l : LoneItem) (ops : List LoneOp) : Prop :=
  ∀ before, before <+: ops → (l.run before).OpenOnlyActive

/-- Every opening on the way is one of an active item. -/
def OpensOnlyActive (l : LoneItem) (ops : List LoneOp) : Prop :=
  ∀ before op, before ++ [op] <+: ops → (l.run before).Opens op → (l.run before).item.state = .active

theorem Ticketed.staysOpenOnlyActive_iff (h : l.Ticketed) (ho : l.OpenOnlyActive)
    (ops : List LoneOp) : l.StaysOpenOnlyActive ops ↔ l.OpensOnlyActive ops := by
  constructor
  · intro hstays before op hpre hop
    refine (h.run before).active_of_opens hop ?_
    rw [← run_append_singleton]
    exact hstays _ hpre
  · intro hopens before
    induction before using List.reverseRecOn with
    | nil => exact fun _ => ho
    | append_singleton before op ih =>
      intro hpre
      rw [run_append_singleton]
      exact (h.run before).openOnlyActive_step
        (ih ((List.prefix_append before [op]).trans hpre)) (hopens before op hpre)

section

variable (definition : ModuleDefinition) (context : ItemContext) (cache : TemplateCache)
  (clicks keys : Bool) (catalog : IconCatalog) (host : Host)

/-- Only clicks and openings open the panel, in whichever state the item is, and a mount leaves it
as it is; an unmount closes it, whether it succeeds or not. The panel shows exactly while it is open
and the item active. It is open only while the item is active exactly if every opening was one of an
active item; then every mount that succeeds finds it closed. -/
theorem isOpen_of_run (ops : List LoneOp) :
    let l := startSettings definition context cache clicks keys catalog host
    (∀ op, (l.run ops).Opens op ↔ (l.run ops).item.isOpen = false ∧
      (op = .item .click ∨ op = .item (.settings (.setOpen true)))) ∧
    ((l.run ops).step (.item .unmount)).item.isOpen = false ∧
    (∀ surroundings, ((l.run ops).step (.item (.mount surroundings))).item.isOpen =
      (l.run ops).item.isOpen) ∧
    ((l.run ops).item.panel?.isSome = true ↔
      (l.run ops).item.isOpen = true ∧ (l.run ops).item.state = .active) ∧
    (l.StaysOpenOnlyActive ops ↔ l.OpensOnlyActive ops) ∧
    (l.OpensOnlyActive ops → ∀ before surroundings,
      before ++ [.item (.mount surroundings)] <+: ops →
      (l.run before).item.begins (l.run before).catalog.snapshot.1 (.mount surroundings) = true →
      (l.run (before ++ [.item (.mount surroundings)])).item.isOpen = false) := by
  intro l
  have hstart : l.Ticketed :=
    startSettings_ticketed definition context cache clicks keys catalog host
  have h : (l.run ops).Ticketed := hstart.run ops
  have hcaptured : l.item.item.Captured := Item.captured_of_initial rfl rfl
  have hiff : l.StaysOpenOnlyActive ops ↔ l.OpensOnlyActive ops :=
    hstart.staysOpenOnlyActive_iff (fun hopen => by cases hopen) ops
  refine ⟨h.opens_iff, h.step_isOpen _, fun _ => h.step_isOpen _,
    BarItem.panel?_isSome_iff (run_captured hcaptured hstart ops), hiff, ?_⟩
  intro hopens before surroundings hpre hbegins
  have hbefore := hiff.mpr hopens before ((List.prefix_append before _).trans hpre)
  have hb : (l.run before).Ticketed := hstart.run before
  rw [BarItem.begins_mount hb.coherent, decide_eq_true_eq] at hbegins
  rw [run_append_singleton, hb.step_isOpen]
  -- The item was unmounted just before, so its panel was closed.
  refine Bool.eq_false_iff.mpr fun hopen => ?_
  have hactive : (l.run before).item.item.state = .active := hbefore hopen
  rw [hbegins] at hactive
  cases hactive

end

/-- A settings item that nothing was done to. -/
def untouched : LoneItem :=
  startSettings { id := "a", template := "'x'" } ⟨[], {}, some [], true⟩ (.empty 64) false false
    .empty ⟨none, none, []⟩

/-- A panel that was opened while mounted is closed at the next mount. -/
theorem isOpen_of_run_clicked :
    untouched.OpensOnlyActive
      [.item (.mount []), .item .click, .item .unmount, .item (.mount [])] ∧
    (untouched.run [.item (.mount []), .item .click]).item.panel?.isSome = true ∧
    (untouched.run [.item (.mount []), .item .click, .item .unmount,
      .item (.mount [])]).item.isOpen = false := by
  obtain ⟨-, -, -, -, hiff, hmount⟩ := isOpen_of_run { id := "a", template := "'x'" }
    ⟨[], {}, some [], true⟩ (.empty 64) false false .empty ⟨none, none, []⟩
    [.item (.mount []), .item .click, .item .unmount, .item (.mount [])]
  obtain ⟨-, -, -, hpanel, -, -⟩ := isOpen_of_run { id := "a", template := "'x'" }
    ⟨[], {}, some [], true⟩ (.empty 64) false false .empty ⟨none, none, []⟩
    [.item (.mount []), .item .click]
  have hopens : untouched.OpensOnlyActive
      [.item (.mount []), .item .click, .item .unmount, .item (.mount [])] := by
    refine hiff.mp fun before hpre => ?_
    have hmem := (List.mem_inits _ _).mpr hpre
    simp only [List.inits, List.mem_cons, List.map_cons, List.map_nil, List.not_mem_nil,
      or_false] at hmem
    rcases hmem with rfl | rfl | rfl | rfl | rfl
    · exact fun hopen => by cases hopen
    · exact fun _ => rfl
    · exact fun _ => rfl
    · exact fun hopen => by cases hopen
    · exact fun _ => rfl
  exact ⟨hopens, hpanel.mpr ⟨rfl, rfl⟩,
    hmount hopens [.item (.mount []), .item .click, .item .unmount] [] (List.prefix_refl _) rfl⟩

/-- An opening before the first mount opens the panel, and the mount shows it. -/
theorem isOpen_of_unmounted :
    ¬(∀ ops, (untouched.run ops).item.isOpen = true →
      (untouched.run ops).item.state = .active) ∧
    (untouched.run [.item (.settings (.setOpen true))]).item.isOpen = true ∧
    (untouched.run [.item (.settings (.setOpen true))]).item.state = .unmounted ∧
    (untouched.run [.item (.settings (.setOpen true)), .item (.mount [])]).item.isOpen = true ∧
    (untouched.run [.item (.settings (.setOpen true)), .item (.mount [])]).item.state = .active := by
  have hopen : (untouched.run [.item (.settings (.setOpen true))]).item.isOpen = true := rfl
  have hstate : (untouched.run [.item (.settings (.setOpen true))]).item.state = .unmounted := rfl
  refine ⟨fun h => ?_, hopen, hstate, rfl, rfl⟩
  have hactive := h _ hopen
  rw [hstate] at hactive
  cases hactive

end LoneItem

end TemplateBar
