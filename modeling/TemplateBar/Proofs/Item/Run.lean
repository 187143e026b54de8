import TemplateBar.Item.Basic

/-!
# Runs of an item

What can be done to an item, one operation after the other. The lemmas say what each operation does
to the item as a whole, and what no operation touches.
-/
namespace TemplateBar

/-- The operations on an item. Mounting brings the icons and the environment of that moment. -/
inductive ItemOp where
  | mount (icons : IconView) (surroundings : Dict String)
  | unmount
  | apply (trigger : RenderTrigger)
  | click
  | setActive (active : Bool)
  | setEnvironment (environment : Dict String)

namespace Item

def step (i : Item) : ItemOp → Item
  | .mount icons surroundings => (i.mount icons surroundings).1
  | .unmount => i.unmount.1
  | .apply trigger => (i.apply trigger).1
  | .click => i.click.1
  | .setActive active => i.setActive active
  | .setEnvironment environment => i.setEnvironment environment

def run (i : Item) (ops : List ItemOp) : Item := ops.foldl step i

@[simp] theorem run_nil (i : Item) : i.run [] = i := rfl

theorem run_append_singleton (i : Item) (ops : List ItemOp) (op : ItemOp) :
    i.run (ops ++ [op]) = (i.run ops).step op := by
  simp [run, List.foldl_append]

/-- An item to which the program around the bar listens, or not. -/
def withHandlers (i : Item) (clicks keys : Bool) : Item :=
  { i with hasClickHandler := clicks, hasKeyHandler := keys }

def refreshedScope (i : Item) : ItemScope :=
  Dict.overlay (Dict.insert (Dict.insert i.scope "t"
    (.function (.host (.translate i.context.translations)))) "window"
    (i.window.getD .unfocused).value) i.extraVars

theorem refreshScope_eq (i : Item) : i.refreshScope = { i with scope := i.refreshedScope } := rfl

def seededScope (i : Item) (icons : IconView) (environment : Dict String) : ItemScope :=
  Dict.insert (Dict.insert (Dict.insert i.scope "icon" icons.scopeValue) "env"
    (.object (Dict.mapValues .string environment))) "invoke" (.function (.host .invoke))

theorem seedScope_eq (i : Item) (icons : IconView) (surroundings : Dict String) :
    i.seedScope icons surroundings =
      { i with
        scope := i.seededScope icons (i.context.environment.getD surroundings)
        icons := some icons } := rfl

def mounted (i : Item) (icons : IconView) (surroundings : Dict String) : Item :=
  { i with
    lifecycle := (i.lifecycle.moved .seeding).moved .active
    scope := (i.seedScope icons surroundings).refreshedScope
    icons := some icons }

theorem mount_of_unmounted {i : Item} (h : i.state = .unmounted) (icons : IconView)
    (surroundings : Dict String) :
    i.mount icons surroundings = (i.mounted icons surroundings, .ok ()) := by
  have hl : i.lifecycle.transition .seeding = .ok (i.lifecycle.moved .seeding) := by
    simp [Lifecycle.transition, show i.lifecycle.state = .unmounted from h, ItemState.canMoveTo]
  have hs : (i.lifecycle.moved .seeding).transition .active =
      .ok ((i.lifecycle.moved .seeding).moved .active) := rfl
  simp only [mount, hl]
  rw [seedScope_eq, refreshScope_eq]
  simp only [hs]
  rfl

theorem mount_of_ne_unmounted {i : Item} (h : i.state ≠ .unmounted) (icons : IconView)
    (surroundings : Dict String) :
    i.mount icons surroundings =
      (i, .error (.lifecycle (.invalidTransition i.state .seeding))) := by
  have hl : i.lifecycle.transition .seeding =
      .error (.lifecycle (.invalidTransition i.state .seeding)) := by
    unfold state at h ⊢
    unfold Lifecycle.transition
    cases hs : i.lifecycle.state with
    | unmounted => exact absurd hs h
    | seeding => rfl
    | active => rfl
  simp only [mount, hl]

def unmounted (i : Item) : Item :=
  { i with lifecycle := i.lifecycle.moved .unmounted, icons := none }

theorem unmount_of_active {i : Item} (h : i.state = .active) :
    i.unmount = (i.unmounted, .ok ()) := by
  have hl : i.lifecycle.transition .unmounted = .ok (i.lifecycle.moved .unmounted) := by
    simp [Lifecycle.transition, show i.lifecycle.state = .active from h, ItemState.canMoveTo]
  simp only [unmount, hl]
  rfl

theorem unmount_of_unmounted {i : Item} (h : i.state = .unmounted) :
    i.unmount = (i, .error (.lifecycle (.invalidTransition .unmounted .unmounted))) := by
  have hl : i.lifecycle.transition .unmounted =
      .error (.lifecycle (.invalidTransition .unmounted .unmounted)) := by
    simp [Lifecycle.transition, show i.lifecycle.state = .unmounted from h, ItemState.canMoveTo]
  simp only [unmount, hl]

theorem render_fst (i : Item) :
    i.render.1 = if i.state = .active then i.refreshScope else i := by
  unfold render
  split <;> rfl

theorem click_fst (i : Item) :
    i.click.1 = if i.state = .active then i.refreshScope else i := by
  unfold click
  split <;> rfl

@[simp] theorem store_state (i : Item) (trigger : RenderTrigger) :
    (i.store trigger).state = i.state := by
  cases trigger <;> rfl

theorem apply_fst (i : Item) (trigger : RenderTrigger) :
    (i.apply trigger).1 =
      if i.state = .active then (i.store trigger).refreshScope else i.store trigger := by
  rw [apply, render_fst, store_state]

@[simp] theorem refreshScope_state (i : Item) : i.refreshScope.state = i.state := rfl

@[simp] theorem mounted_state (i : Item) (icons : IconView) (surroundings : Dict String) :
    (i.mounted icons surroundings).state = .active := rfl

@[simp] theorem unmounted_state (i : Item) : i.unmounted.state = .unmounted := rfl

/-- Everything about an item that operations leave alone. -/
def setup (i : Item) : Item :=
  { i with
    context := { i.context with environment := none }
    lifecycle := .initial
    scope := []
    icons := none
    window := none
    extraVars := []
    active := false }

@[simp] theorem setup_refreshScope (i : Item) : i.refreshScope.setup = i.setup := rfl

@[simp] theorem setup_store (i : Item) (trigger : RenderTrigger) :
    (i.store trigger).setup = i.setup := by
  cases trigger <;> rfl

@[simp] theorem setup_mounted (i : Item) (icons : IconView) (surroundings : Dict String) :
    (i.mounted icons surroundings).setup = i.setup := rfl

theorem unmount_setup (i : Item) : i.unmount.1.setup = i.setup := by
  unfold unmount
  cases i.lifecycle.transition .unmounted <;> rfl

theorem step_setup (i : Item) (op : ItemOp) : (i.step op).setup = i.setup := by
  cases op with
  | mount icons surroundings =>
    by_cases h : i.state = .unmounted
    · rw [step, mount_of_unmounted h, setup_mounted]
    · rw [step, mount_of_ne_unmounted h]
  | unmount => exact unmount_setup i
  | apply trigger =>
    rw [step, apply_fst]
    split
    · rw [setup_refreshScope, setup_store]
    · rw [setup_store]
  | click =>
    rw [step, click_fst]
    split
    · rw [setup_refreshScope]
    · rfl
  | setActive active => rfl
  | setEnvironment environment => rfl

theorem run_setup (i : Item) (ops : List ItemOp) : (i.run ops).setup = i.setup := by
  induction ops generalizing i with
  | nil => rfl
  | cons op ops ih => exact (ih (i.step op)).trans (step_setup i op)

theorem content_run (i : Item) (ops : List ItemOp) : (i.run ops).content = i.content := by
  change (i.run ops).setup.content = i.setup.content
  rw [run_setup]

theorem limits_run (i : Item) (ops : List ItemOp) :
    (i.run ops).context.limits = i.context.limits := by
  change (i.run ops).setup.context.limits = i.setup.context.limits
  rw [run_setup]

/-- What an item shows depends on what operations leave alone, the scope and the highlighting. -/
theorem view_congr {i j : Item} (hsetup : i.setup = j.setup) (hscope : i.scope = j.scope)
    (hactive : i.active = j.active) (icons : IconView) : i.view icons = j.view icons := by
  obtain ⟨_, _, _, _, ⟨_, _, _, _⟩, _, _, _, _, _, _, _, _⟩ := i
  obtain ⟨_, _, _, _, ⟨_, _, _, _⟩, _, _, _, _, _, _, _, _⟩ := j
  simp only [setup, Item.mk.injEq, ItemContext.mk.injEq] at hsetup hscope hactive
  obtain ⟨rfl, rfl, rfl, rfl, ⟨rfl, rfl, -, rfl⟩, -, -, -, -, -, -, rfl, rfl⟩ := hsetup
  subst hscope hactive
  rfl

theorem map_content_view (i : Item) (icons : IconView) :
    (i.view icons).map (·.content) =
      if (i.templateNodes i.content icons).isEmpty then none
      else some (i.templateNodes i.content icons) := by
  unfold view
  dsimp only
  split <;> rfl

/-- An active item shows the nodes of its content on the refreshed scope, if there are any. -/
theorem content_render {i : Item} {icons : IconView} (hactive : i.state = .active)
    (hicons : i.icons = some icons) :
    i.render.2.map (·.content) =
      if (i.refreshScope.templateNodes i.content icons).isEmpty then none
      else some (i.refreshScope.templateNodes i.content icons) := by
  rw [render, if_pos hactive]
  change (i.icons.bind i.refreshScope.view).map _ = _
  rw [hicons]
  exact map_content_view i.refreshScope icons

end Item
end TemplateBar
