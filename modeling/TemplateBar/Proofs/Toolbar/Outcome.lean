import TemplateBar.Proofs.Toolbar.Panel
import TemplateBar.Proofs.Toolbar.Soundness

/-!
# What the operations on an item give

The outcome of an operation is all that it hands out together with all that can be asked of the item
before and after it. Further operations may be put in between those of a run; a simulation that they
do not leave shows that the others give what they give without them. `LatestInputs` keeps the newest
of each thing that a run hands in for later, and the invariant `Holds` says that the item has just
these.
-/
namespace TemplateBar

/-- What can be asked of an item. -/
structure Sight where
  lifecycle : Lifecycle
  scope : ItemScope
  icons : Option IconView
  isOpen : Bool
  brightness : Option Brightness
  panel : Option SettingsPanel
  pending : List PendingTask
  /-- The calls that the host has seen. -/
  calls : List HostCall

/-- What an operation hands out, and what can be asked before and after it. -/
structure Outcome where
  before : Sight
  result : Except BarError Unit
  view : Option ItemView
  key : Option String
  tasks : List HostTask
  after : Sight

/-- An operation and those put in before it. -/
structure PaddedOp where
  before : List LoneOp
  op : LoneOp

namespace LoneItem

def sight (l : LoneItem) : Sight where
  lifecycle := l.item.item.lifecycle
  scope := l.item.item.scope
  icons := l.item.item.icons
  isOpen := l.item.isOpen
  brightness := l.item.brightness?
  panel := l.item.panel?
  pending := l.pending
  calls := l.host.calls

def reaction (l : LoneItem) : LoneOp → Reaction
  | .item op => l.item.act l.catalog.snapshot.1 op
  | .registerIcon name glyph =>
    { item := l.item, result := (l.catalog.register name glyph).map fun _ => () }
  | .answerWith _ _ | .runTask _ => { item := l.item }

def outcome (l : LoneItem) (op : LoneOp) : Outcome where
  before := l.sight
  result := (l.reaction op).result
  view := (l.reaction op).view
  key := (l.reaction op).key
  tasks := (l.reaction op).tasks
  after := (l.step op).sight

def outcomes (l : LoneItem) : List LoneOp → List Outcome
  | [] => []
  | op :: ops => l.outcome op :: (l.step op).outcomes ops

/-- The outcomes of a run's own operations, with others put in between. -/
def paddedOutcomes (l : LoneItem) : List PaddedOp → List Outcome
  | [] => []
  | p :: ps => (l.run p.before).outcome p.op :: ((l.run p.before).step p.op).paddedOutcomes ps

section

variable {R : LoneItem → LoneItem → Prop} {extra : LoneOp → Prop} {fine : LoneItem → LoneOp → Prop}

theorem related_run (hextra : ∀ l l' op, R l l' → extra op → R l (l'.step op)) {l l' : LoneItem}
    (h : R l l') {ops : List LoneOp} (hops : ∀ op ∈ ops, extra op) : R l (l'.run ops) := by
  induction ops generalizing l' with
  | nil => exact h
  | cons op ops ih =>
    obtain ⟨hop, hrest⟩ := List.forall_mem_cons.mp hops
    exact ih (hextra l l' op h hop) hrest

variable (R fine)

/-- Operations put in make no difference if a relation between runs with and without them survives
them, and survives the others with the same outcome. -/
theorem paddedOutcomes_eq (hextra : ∀ l l' op, R l l' → extra op → R l (l'.step op))
    (hstep : ∀ l l' op, R l l' → fine l op →
      l'.outcome op = l.outcome op ∧ R (l.step op) (l'.step op))
    {l l' : LoneItem} (h : R l l') {ps : List PaddedOp}
    (hpad : ∀ p ∈ ps, ∀ op ∈ p.before, extra op)
    (hfine : ∀ before op after, ps.map (·.op) = before ++ op :: after → fine (l.run before) op) :
    l'.paddedOutcomes ps = l.outcomes (ps.map (·.op)) := by
  induction ps generalizing l l' with
  | nil => rfl
  | cons p ps ih =>
    obtain ⟨hp, hps⟩ := List.forall_mem_cons.mp hpad
    obtain ⟨houtcome, hnext⟩ := hstep l (l'.run p.before) p.op (related_run hextra h hp)
      (hfine [] p.op (ps.map (·.op)) rfl)
    have hrest := ih hnext hps fun before op after hops =>
      hfine (p.op :: before) op after (congrArg (p.op :: ·) hops)
    change (l'.run p.before).outcome p.op :: _ = l.outcome p.op :: _
    rw [houtcome, hrest]

end

end LoneItem

/-- The newest of each thing that is handed to an item for later. -/
structure LatestInputs where
  glyphs : Dict String
  /-- The environment that the next mount captures, if one was fixed. -/
  environment : Option (Dict String)
  window : Option WindowSnapshot
  vars : Dict ItemValue

namespace LatestInputs

def step (r : LatestInputs) : LoneOp → LatestInputs
  | .registerIcon name glyph =>
    if isIconName name then { r with glyphs := Dict.insert r.glyphs name glyph } else r
  | .item (.setEnvironment environment) => { r with environment := some environment }
  | .item (.apply (.focusChanged window)) => { r with window }
  | .item (.apply (.varsChanged vars)) => { r with vars }
  | _ => r

def after (r : LatestInputs) (ops : List LoneOp) : LatestInputs := ops.foldl step r

end LatestInputs

namespace Item

/-- What an item keeps for later. -/
def kept (i : Item) : Option (Dict String) × Option WindowSnapshot × Dict ItemValue :=
  (i.context.environment, i.window, i.extraVars)

/-- An item without what mounts and renders write. -/
def bare (i : Item) : Item :=
  { i with
    lifecycle := .initial
    scope := []
    icons := none }

theorem kept_of_bare {i j : Item} (h : i.bare = j.bare) : i.kept = j.kept :=
  congrArg (·.kept) h

theorem bare_mount (i : Item) (icons : IconView) (surroundings : Dict String) :
    (i.mount icons surroundings).1.bare = i.bare := by
  by_cases h : i.state = .unmounted
  · rw [mount_of_unmounted h]
    rfl
  · rw [mount_of_ne_unmounted h]

theorem bare_unmount (i : Item) : i.unmount.1.bare = i.bare := by
  unfold unmount
  cases i.lifecycle.transition .unmounted <;> rfl

theorem bare_apply (i : Item) (trigger : RenderTrigger) :
    (i.apply trigger).1.bare = (i.store trigger).bare := by
  rw [apply_fst]
  split <;> rfl

theorem bare_click (i : Item) : i.click.1.bare = i.bare := by
  rw [click_fst]
  split <;> rfl

end Item

namespace LoneItem

/-- The invariant of runs. -/
structure Holds (l : LoneItem) (r : LatestInputs) : Prop where
  coherent : l.item.item.Coherent
  catalog : l.catalog.Reachable
  glyphs : l.catalog.glyphs = r.glyphs
  kept : l.item.item.kept = (r.environment, r.window, r.vars)

variable {l : LoneItem} {r : LatestInputs}

theorem Holds.icons (h : l.Holds r) : l.catalog.snapshot.1 = ⟨r.glyphs⟩ := by
  rw [← h.glyphs, ← h.catalog.snapshot_glyphs]

theorem Holds.act (h : l.Holds r) (op : BarItemOp) : (l.act op).Holds (r.step (.item op)) := by
  have hcoherent := BarItem.coherent_act h.coherent l.catalog.snapshot.1 op
  have hglyphs : (l.act op).catalog.glyphs = r.glyphs := l.catalog.glyphs_snapshot.trans h.glyphs
  have hkept {i : Item}
      (hi : (l.item.item.run (l.item.itemOps l.catalog.snapshot.1 op)).bare = i.bare) :
      (l.act op).item.item.kept = i.kept :=
    Item.kept_of_bare ((congrArg Item.bare (l.item.act_item _ op)).trans hi)
  cases op with
  | mount surroundings =>
    exact ⟨hcoherent, h.catalog.snapshot, hglyphs, (hkept (Item.bare_mount _ _ _)).trans h.kept⟩
  | unmount =>
    exact ⟨hcoherent, h.catalog.snapshot, hglyphs, (hkept (Item.bare_unmount _)).trans h.kept⟩
  | click =>
    exact ⟨hcoherent, h.catalog.snapshot, hglyphs, (hkept (Item.bare_click _)).trans h.kept⟩
  | apply trigger =>
    have hstored : (l.act (.apply trigger)).item.item.kept = (l.item.item.store trigger).kept := by
      cases hi : l.item with
      | generic i =>
        rw [hi] at hkept
        exact hkept (i.bare_apply trigger)
      | settings s =>
        rw [hi] at hkept
        refine (hkept ((s.item.setActive s.isOpen).bare_apply trigger)).trans ?_
        cases trigger <;> rfl
    obtain ⟨henvironment, hwindow, hvars⟩ : _ ∧ _ ∧ _ := by simpa [Item.kept] using h.kept
    cases trigger with
    | focusChanged window =>
      refine ⟨hcoherent, h.catalog.snapshot, hglyphs, hstored.trans ?_⟩
      exact congrArg₂ (·, window, ·) henvironment hvars
    | varsChanged vars =>
      refine ⟨hcoherent, h.catalog.snapshot, hglyphs, hstored.trans ?_⟩
      exact congrArg₂ (·, ·, vars) henvironment hwindow
    | refresh => exact ⟨hcoherent, h.catalog.snapshot, hglyphs, hstored.trans h.kept⟩
  | setEnvironment environment =>
    refine ⟨hcoherent, h.catalog.snapshot, hglyphs, (hkept rfl).trans ?_⟩
    exact congrArg (some environment, ·) (congrArg Prod.snd h.kept)
  | key name | setActive active | settings op =>
    exact ⟨hcoherent, h.catalog.snapshot, hglyphs, (hkept rfl).trans h.kept⟩

theorem Holds.step (h : l.Holds r) (op : LoneOp) : (l.step op).Holds (r.step op) := by
  cases op with
  | item op => exact h.act op
  | registerIcon name glyph =>
    have hglyphs := l.catalog.register_glyphs name glyph
    rw [h.glyphs] at hglyphs
    have hcatalog := h.catalog.register_getD name glyph
    unfold LatestInputs.step
    dsimp only
    split
    · next hname => exact ⟨h.coherent, hcatalog, hglyphs.trans (if_pos hname), h.kept⟩
    · next hname => exact ⟨h.coherent, hcatalog, hglyphs.trans (if_neg hname), h.kept⟩
  | answerWith brightness script => exact ⟨h.coherent, h.catalog, h.glyphs, h.kept⟩
  | runTask n =>
    have hitem : (l.runTask n).item.item = l.item.item := l.item_runTask n
    have hcatalog : (l.runTask n).catalog = l.catalog := by
      unfold runTask
      split <;> rfl
    exact ⟨hitem ▸ h.coherent, hcatalog ▸ h.catalog, hcatalog ▸ h.glyphs, hitem ▸ h.kept⟩

theorem Holds.run (h : l.Holds r) (ops : List LoneOp) : (l.run ops).Holds (r.after ops) := by
  induction ops generalizing l r with
  | nil => exact h
  | cons op ops ih => exact ih (h.step op)

theorem run_setup (l : LoneItem) (ops : List LoneOp) :
    (l.run ops).item.item.setup = l.item.item.setup := by
  induction ops generalizing l with
  | nil => rfl
  | cons op ops ih =>
    refine (ih (l.step op)).trans ?_
    cases op with
    | item op => exact l.item.act_setup _ op
    | registerIcon name glyph | answerWith brightness script => rfl
    | runTask n => exact congrArg Item.setup (l.item_runTask n)

section

variable (kind : ModuleKind) (definition : ModuleDefinition) (context : ItemContext)
  (cache : TemplateCache) (clicks keys : Bool) {catalog : IconCatalog} (host : Host)

theorem start_holds (h : catalog.Reachable) :
    (start (.fresh kind definition context cache clicks keys) catalog host).Holds
      ⟨catalog.glyphs, context.environment, none, []⟩ := by
  cases kind <;> exact ⟨Item.coherent_of_initial rfl rfl, h, rfl, rfl⟩

theorem translations_run (ops : List LoneOp) :
    ((start (.fresh kind definition context cache clicks keys) catalog host).run
      ops).item.item.context.translations = context.translations := by
  refine (congrArg (·.context.translations) (run_setup _ ops)).trans ?_
  cases kind <;> rfl

end

end LoneItem

end TemplateBar
