import TemplateBar.Proofs.Item.Scope

/-!
# Items between operations

Between operations an item is unmounted or active. While it is active it can hand out tickets and
its scope already says what the latest inputs say, so that refreshing it changes nothing.
-/
namespace TemplateBar.Item

open ItemInputs

structure Coherent (i : Item) : Prop where
  state : i.state = .unmounted ∨ i.state = .active
  mountId : i.state = .active → i.lifecycle.mountId.isSome
  sorted : Dict.Sorted i.scope
  refreshed : i.state = .active → i.refreshScope = i

variable {i : Item}

theorem coherent_of_initial (hl : i.lifecycle = .initial) (hs : i.scope = []) : i.Coherent where
  state := Or.inl (by rw [Item.state, hl]; rfl)
  mountId := fun h => by simp [Item.state, hl, Lifecycle.initial] at h
  sorted := hs ▸ Dict.sorted_nil
  refreshed := fun h => by simp [Item.state, hl, Lifecycle.initial] at h

theorem Coherent.active_of_ne (h : i.Coherent) (hn : i.state ≠ .unmounted) : i.state = .active :=
  h.state.resolve_left hn

/-- A second refresh writes what the first one wrote. -/
theorem refreshScope_refreshScope (h : Dict.Sorted i.scope) :
    i.refreshScope.refreshScope = i.refreshScope := by
  have hscope : i.refreshScope.refreshScope.scope = i.refreshScope.scope := by
    apply Dict.ext (sorted_refreshScope (sorted_refreshScope h)) (sorted_refreshScope h)
    intro key
    rw [get?_refreshScope i.refreshScope, get?_refreshScope i]
    change (Dict.get? (Dict.ofList i.extraVars) key).or
      ((refreshed? i.context.translations i.window key).or _) = _
    cases Dict.get? (Dict.ofList i.extraVars) key with
    | some v => rfl
    | none => cases refreshed? i.context.translations i.window key <;> rfl
  rw [refreshScope_eq i.refreshScope]
  change { i.refreshScope with scope := i.refreshScope.refreshScope.scope } = i.refreshScope
  rw [hscope]

theorem Coherent.of_refreshed (hsorted : Dict.Sorted i.scope) (hactive : i.state = .active)
    (hmount : i.lifecycle.mountId.isSome) : i.refreshScope.Coherent where
  state := Or.inr hactive
  mountId := fun _ => hmount
  sorted := sorted_refreshScope hsorted
  refreshed := fun _ => refreshScope_refreshScope hsorted

/-- An item in its next mount, its scope apart. -/
def activated (i : Item) : Item :=
  { i with lifecycle := (i.lifecycle.moved .seeding).moved .active }

theorem mounted_eq (i : Item) (icons : IconView) (surroundings : Dict String) :
    i.mounted icons surroundings = (i.seedScope icons surroundings).activated.refreshScope := by
  rw [refreshScope_eq, seedScope_eq, mounted, seedScope_eq]
  simp only [refreshedScope, activated]

@[simp] theorem store_scope (i : Item) (trigger : RenderTrigger) :
    (i.store trigger).scope = i.scope := by
  cases trigger <;> rfl

@[simp] theorem store_lifecycle (i : Item) (trigger : RenderTrigger) :
    (i.store trigger).lifecycle = i.lifecycle := by
  cases trigger <;> rfl

theorem Coherent.step (h : i.Coherent) (op : ItemOp) : (i.step op).Coherent := by
  cases op with
  | mount icons surroundings =>
    rcases h.state with hu | ha
    · rw [Item.step, mount_of_unmounted hu, mounted_eq]
      have hsorted : Dict.Sorted (i.seedScope icons surroundings).activated.scope :=
        sorted_seedScope h.sorted icons surroundings
      exact Coherent.of_refreshed hsorted rfl rfl
    · rw [Item.step, mount_of_ne_unmounted (by simp [ha])]
      exact h
  | unmount =>
    rcases h.state with hu | ha
    · rw [Item.step, unmount_of_unmounted hu]
      exact h
    · rw [Item.step, unmount_of_active ha]
      exact
        { state := Or.inl rfl
          mountId := fun hf => by simp at hf
          sorted := h.sorted
          refreshed := fun hf => by simp at hf }
  | apply trigger =>
    rw [Item.step, apply_fst]
    split
    · next ha =>
      exact Coherent.of_refreshed (by simpa using h.sorted) (by simpa using ha)
        (by simpa using h.mountId ha)
    · next ha =>
      exact
        { state := by simpa using h.state
          mountId := fun hf => absurd (by simpa using hf) ha
          sorted := by simpa using h.sorted
          refreshed := fun hf => absurd (by simpa using hf) ha }
  | click =>
    rw [Item.step, click_fst]
    split
    · next ha => exact Coherent.of_refreshed h.sorted ha (h.mountId ha)
    · exact h
  | setActive active =>
    exact { h with refreshed := fun ha => congrArg (·.setActive active) (h.refreshed ha) }
  | setEnvironment environment =>
    exact { h with refreshed := fun ha => congrArg (·.setEnvironment environment) (h.refreshed ha) }

theorem Coherent.run (h : i.Coherent) (ops : List ItemOp) : (i.run ops).Coherent := by
  induction ops generalizing i with
  | nil => exact h
  | cons op ops ih => exact ih (h.step op)

/-- The lifecycle moves with a mount of an unmounted item and an unmount of an active one. -/
theorem Coherent.step_lifecycle (h : i.Coherent) (op : ItemOp) :
    (i.step op).lifecycle =
      match op with
      | .mount _ _ =>
        if i.state = .unmounted then (i.lifecycle.moved .seeding).moved .active else i.lifecycle
      | .unmount => if i.state = .unmounted then i.lifecycle else i.lifecycle.moved .unmounted
      | _ => i.lifecycle := by
  cases op with
  | mount icons surroundings =>
    rcases h.state with hu | ha
    · simp only [Item.step, mount_of_unmounted hu, hu, if_true]
      rfl
    · simp [Item.step, mount_of_ne_unmounted (i := i) (by simp [ha]), ha]
  | unmount =>
    rcases h.state with hu | ha
    · simp [Item.step, unmount_of_unmounted hu, hu]
    · simp only [Item.step, unmount_of_active ha, ha]
      rfl
  | apply trigger =>
    rw [Item.step, apply_fst]
    split
    · exact store_lifecycle i trigger
    · exact store_lifecycle i trigger
  | click =>
    rw [Item.step, click_fst]
    split <;> rfl
  | setActive active => rfl
  | setEnvironment environment => rfl

/-- Icons are held exactly while active. -/
def Captured (i : Item) : Prop := i.icons.isSome = true ↔ i.state = .active

theorem captured_of_initial (hl : i.lifecycle = .initial) (hi : i.icons = none) : i.Captured :=
  iff_of_false (by simp [hi]) (by simp [Item.state, hl, Lifecycle.initial])

@[simp] theorem store_icons (i : Item) (trigger : RenderTrigger) :
    (i.store trigger).icons = i.icons := by
  cases trigger <;> rfl

theorem Captured.step (h : i.Captured) (hc : i.Coherent) (op : ItemOp) : (i.step op).Captured := by
  cases op with
  | mount icons surroundings =>
    rcases hc.state with hu | ha
    · rw [Item.step, mount_of_unmounted hu]
      exact iff_of_true rfl rfl
    · rw [Item.step, mount_of_ne_unmounted (by simp [ha])]
      exact h
  | unmount =>
    rcases hc.state with hu | ha
    · rw [Item.step, unmount_of_unmounted hu]
      exact h
    · rw [Item.step, unmount_of_active ha]
      exact iff_of_false (by simp [unmounted]) (by simp)
  | apply trigger =>
    rw [Item.step, apply_fst]
    split
    · change (i.store trigger).icons.isSome = true ↔ (i.store trigger).state = .active
      rwa [store_icons, store_state]
    · rwa [Captured, store_icons, store_state]
  | click =>
    rw [Item.step, click_fst]
    split
    · exact h
    · exact h
  | setActive active => exact h
  | setEnvironment environment => exact h

theorem Captured.run (h : i.Captured) (hc : i.Coherent) (ops : List ItemOp) :
    (i.run ops).Captured := by
  induction ops generalizing i with
  | nil => exact h
  | cons op ops ih => exact ih (h.step hc op) (hc.step op)

/-- The click template sees the scope as it is. -/
theorem Coherent.click_of_active (h : i.Coherent) (ha : i.state = .active) :
    i.click = (i, i.tasksOf (clickCalls i.onClick i.scope i.context.limits)) := by
  simp only [click, ha, if_true, h.refreshed ha]

end TemplateBar.Item
