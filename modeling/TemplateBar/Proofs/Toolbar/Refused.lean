import TemplateBar.Proofs.Toolbar.Items
import TemplateBar.Proofs.Toolbar.Panel

/-!
# Mounts and unmounts that fail

A mount of an active item and an unmount of an unmounted one are refused. A refused mount leaves
everything as it was, and so does a refused unmount but for the panel, which it closes. A mount that
is given up, as there are no icons to capture, leaves nothing behind but its number.
-/
namespace TemplateBar

namespace Item

variable {i : Item}

/-- The item had it begun one more mount. -/
def countMount (i : Item) : Item :=
  { i with lifecycle := { i.lifecycle with generation := i.lifecycle.generation + 1 } }

/-- No mount is named while there is none. -/
def Unnamed (i : Item) : Prop := i.state = .unmounted → i.lifecycle.mountId = none

theorem Unnamed.step (h : i.Unnamed) (hc : i.Coherent) (op : ItemOp) : (i.step op).Unnamed := by
  unfold Unnamed state
  rw [hc.step_lifecycle op]
  cases op with
  | mount icons surroundings =>
    rcases hc.state with hu | ha
    · simp only [hu, if_true]
      exact fun hs => by cases hs
    · simp only [ha, reduceCtorEq, if_false]
      exact h
  | unmount =>
    rcases hc.state with hu | ha
    · simp only [hu, if_true]
      exact h
    · simp only [ha, reduceCtorEq, if_false]
      exact fun _ => rfl
  | apply trigger | click | setActive active | setEnvironment environment => exact h

theorem Unnamed.run (h : i.Unnamed) (hc : i.Coherent) (ops : List ItemOp) :
    (i.run ops).Unnamed := by
  induction ops generalizing i with
  | nil => exact h
  | cons op ops ih => exact ih (h.step hc op) (hc.step op)

theorem giveUpMount_of_active (h : i.state = .active) (cause : BarError) :
    i.giveUpMount cause = (i, .error (.lifecycle (.invalidTransition .active .seeding))) := by
  have hl : i.lifecycle.transition .seeding =
      .error (.lifecycle (.invalidTransition .active .seeding)) := by
    simp [Lifecycle.transition, show i.lifecycle.state = .active from h, ItemState.canMoveTo]
  simp only [giveUpMount, hl]

theorem giveUpMount_of_unmounted (h : i.state = .unmounted) (hm : i.Unnamed) (cause : BarError) :
    i.giveUpMount cause = (i.countMount, .error cause) := by
  have hl : i.lifecycle.transition .seeding = .ok (i.lifecycle.moved .seeding) := by
    simp [Lifecycle.transition, show i.lifecycle.state = .unmounted from h, ItemState.canMoveTo]
  have hback : (i.lifecycle.moved .seeding).transition .unmounted =
      .ok ((i.lifecycle.moved .seeding).moved .unmounted) := rfl
  have hcount : (i.lifecycle.moved .seeding).moved .unmounted =
      { i.lifecycle with generation := i.lifecycle.generation + 1 } := by
    rw [Lifecycle.mk.injEq]
    exact ⟨h.symm, rfl, (hm h).symm⟩
  simp only [giveUpMount, hl, hback, hcount]
  rfl

theorem coherent_countMount (h : i.Coherent) (hu : i.state = .unmounted) :
    i.countMount.Coherent where
  state := Or.inl hu
  mountId := fun ha => absurd ((show i.state = .active from ha).symm.trans hu) (by decide)
  sorted := h.sorted
  refreshed := fun ha => absurd ((show i.state = .active from ha).symm.trans hu) (by decide)

end Item

namespace BarItem

variable {b : BarItem}

/-- The item with its panel closed. -/
def closed : BarItem → BarItem
  | generic i => generic i
  | settings s => settings { s with isOpen := false }

@[simp] theorem closed_item (b : BarItem) : b.closed.item = b.item := by
  cases b <;> rfl

@[simp] theorem closed_brightness? (b : BarItem) : b.closed.brightness? = b.brightness? := by
  cases b <;> rfl

theorem closed_eq_iff : b.closed = b ↔ b.isOpen = false := by
  cases b with
  | generic i => exact iff_of_true rfl rfl
  | settings s =>
    obtain ⟨item, isOpen, brightness⟩ := s
    cases isOpen
    · exact iff_of_true rfl rfl
    · exact iff_of_false (by simp [closed]) (by simp [BarItem.isOpen, settings?])

theorem mount_of_active (h : b.state = .active) (icons : IconView) (surroundings : Dict String) :
    b.mount icons surroundings =
      (b, .error (.lifecycle (.invalidTransition .active .seeding)), []) := by
  have hm := Item.mount_of_ne_unmounted (i := b.item) (by simp [show b.item.state = _ from h]) icons
    surroundings
  rw [show b.item.state = .active from h] at hm
  cases b with
  | generic i =>
    change i.mount icons surroundings = _ at hm
    simp only [mount, hm]
    rfl
  | settings s =>
    change s.item.mount icons surroundings = _ at hm
    simp only [mount, SettingsItem.mount, hm]
    rfl

theorem unmount_of_unmounted (h : b.state = .unmounted) :
    b.unmount = (b.closed, .error (.lifecycle (.invalidTransition .unmounted .unmounted))) := by
  have hm := Item.unmount_of_unmounted (i := b.item) h
  cases b with
  | generic i =>
    change i.unmount = _ at hm
    simp only [unmount, hm]
    rfl
  | settings s =>
    change s.item.unmount = _ at hm
    simp only [unmount, SettingsItem.unmount, hm]
    rfl

@[simp] theorem mapItem_item (b : BarItem) (f : Item → Item) : (b.mapItem f).item = f b.item := by
  cases b <;> rfl

theorem mapItem_congr {f g : Item → Item} (h : f b.item = g b.item) :
    b.mapItem f = b.mapItem g := by
  cases b with
  | generic i => exact congrArg generic h
  | settings s => exact congrArg (fun item => settings { s with item }) h

theorem mapItem_self : b.mapItem (fun i => i) = b := by
  cases b <;> rfl

theorem giveUpMount_of_active (h : b.state = .active) (cause : BarError) :
    b.giveUpMount cause = (b, .error (.lifecycle (.invalidTransition .active .seeding))) := by
  have hg := Item.giveUpMount_of_active (i := b.item) h cause
  have hsame : b.mapItem (fun i => (i.giveUpMount cause).1) = b.mapItem fun i => i :=
    mapItem_congr (congrArg Prod.fst hg)
  rw [giveUpMount, hsame, mapItem_self, hg]

theorem giveUpMount_of_unmounted (h : b.state = .unmounted) (hm : b.item.Unnamed)
    (cause : BarError) : b.giveUpMount cause = (b.mapItem .countMount, .error cause) := by
  have hg := Item.giveUpMount_of_unmounted (i := b.item) h hm cause
  have hcount : b.mapItem (fun i => (i.giveUpMount cause).1) = b.mapItem .countMount :=
    mapItem_congr (congrArg Prod.fst hg)
  rw [giveUpMount, hcount, hg]

end BarItem

namespace LoneItem

variable {l : LoneItem}

def giveUpMount (l : LoneItem) (cause : BarError) : LoneItem :=
  { l with item := (l.item.giveUpMount cause).1 }

/-- What operations lead to, mounts that are given up among them. -/
inductive Reachable : LoneItem → Prop
  | start (kind : ModuleKind) (definition : ModuleDefinition) (context : ItemContext)
      (cache : TemplateCache) (clicks keys : Bool) (catalog : IconCatalog) (host : Host) :
      Reachable (.start (.fresh kind definition context cache clicks keys) catalog host)
  | step {l : LoneItem} (h : Reachable l) (op : LoneOp) : Reachable (l.step op)
  | giveUpMount {l : LoneItem} (h : Reachable l) (cause : BarError) :
      Reachable (l.giveUpMount cause)

/-- The invariant of what can be reached. -/
structure Settled (l : LoneItem) : Prop where
  coherent : l.item.item.Coherent
  unnamed : l.item.item.Unnamed

theorem Settled.step (h : l.Settled) (op : LoneOp) : (l.step op).Settled := by
  cases op with
  | item op =>
    have hitem : (l.step (.item op)).item.item = l.item.item.run (l.item.itemOps _ op) :=
      BarItem.act_item _ _ _
    exact ⟨hitem ▸ h.coherent.run _, hitem ▸ h.unnamed.run h.coherent _⟩
  | registerIcon name glyph => exact ⟨h.coherent, h.unnamed⟩
  | answerWith brightness script => exact ⟨h.coherent, h.unnamed⟩
  | runTask n =>
    have hitem : (l.step (.runTask n)).item.item = l.item.item := l.item_runTask n
    exact ⟨hitem ▸ h.coherent, hitem ▸ h.unnamed⟩

theorem Settled.giveUpMount (h : l.Settled) (cause : BarError) : (l.giveUpMount cause).Settled := by
  rcases h.coherent.state with hu | ha
  · have hitem : (l.giveUpMount cause).item.item = l.item.item.countMount := by
      rw [LoneItem.giveUpMount, BarItem.giveUpMount_of_unmounted hu h.unnamed, BarItem.mapItem_item]
    exact ⟨hitem ▸ Item.coherent_countMount h.coherent hu, hitem ▸ h.unnamed⟩
  · have hitem : (l.giveUpMount cause).item.item = l.item.item := by
      rw [LoneItem.giveUpMount, BarItem.giveUpMount_of_active ha]
    exact ⟨hitem ▸ h.coherent, hitem ▸ h.unnamed⟩

theorem Reachable.settled (h : l.Reachable) : l.Settled := by
  induction h with
  | start kind definition context cache clicks keys catalog host =>
    cases kind <;> exact ⟨Item.coherent_of_initial rfl rfl, fun _ => rfl⟩
  | step h op ih => exact ih.step op
  | giveUpMount h cause ih => exact ih.giveUpMount cause

theorem step_mount_of_active (h : l.item.state = .active) (surroundings : Dict String) :
    l.step (.item (.mount surroundings)) = { l with catalog := l.catalog.snapshot.2 } := by
  have hm := BarItem.mount_of_active h l.catalog.snapshot.1 surroundings
  have hbegins : l.item.begins l.catalog.snapshot.1 (.mount surroundings) = false := by
    simp [BarItem.begins, BarItem.act, hm, Except.isOk, Except.toBool]
  simp [LoneItem.step, LoneItem.act, mountsAfter, hbegins, BarItem.act, hm, Reaction.events]

theorem step_unmount_of_unmounted (h : l.item.state = .unmounted) :
    l.step (.item .unmount) =
      { l with item := l.item.closed, catalog := l.catalog.snapshot.2 } := by
  have hm := BarItem.unmount_of_unmounted h
  simp [LoneItem.step, LoneItem.act, mountsAfter, BarItem.begins, BarItem.act, hm, Reaction.events]

section

variable (h : l.Reachable)

include h

theorem Reachable.mount_error_iff (surroundings : Dict String) :
    (∃ e, (l.item.mount l.catalog.snapshot.1 surroundings).2.1 = .error e) ↔
      l.item.state = .active := by
  rcases h.settled.coherent.state with hu | ha
  · rw [BarItem.mount_result_of_unmounted hu]
    exact iff_of_false (by simp) (by simp [BarItem.state, hu])
  · rw [BarItem.mount_of_active ha]
    exact iff_of_true ⟨_, rfl⟩ ha

theorem Reachable.unmount_error_iff :
    (∃ e, l.item.unmount.2 = .error e) ↔ l.item.state = .unmounted := by
  rcases h.settled.coherent.state with hu | ha
  · rw [BarItem.unmount_of_unmounted hu]
    exact iff_of_true ⟨_, rfl⟩ hu
  · rw [BarItem.unmount_result_of_active ha]
    exact iff_of_false (by simp) (by simp [BarItem.state, ha])

theorem Reachable.giveUpMount_eq (cause : BarError) :
    l.giveUpMount cause =
      if l.item.state = .unmounted then { l with item := l.item.mapItem .countMount } else l := by
  rcases h.settled.coherent.state with hu | ha
  · rw [if_pos (show l.item.state = .unmounted from hu), LoneItem.giveUpMount,
      BarItem.giveUpMount_of_unmounted hu h.settled.unnamed]
  · rw [if_neg (by simp [BarItem.state, ha]), LoneItem.giveUpMount,
      BarItem.giveUpMount_of_active ha]

theorem Reachable.giveUpMount_fails (cause : BarError) :
    ∃ e, (l.item.giveUpMount cause).2 = .error e := by
  rcases h.settled.coherent.state with hu | ha
  · rw [BarItem.giveUpMount_of_unmounted hu h.settled.unnamed]
    exact ⟨_, rfl⟩
  · rw [BarItem.giveUpMount_of_active ha]
    exact ⟨_, rfl⟩

/-- No ticket becomes current or stale, as there is none for a mount that is over. -/
theorem Reachable.isCurrent_giveUpMount (cause : BarError) (ticket : MountTicket) :
    ticket.isCurrent (l.giveUpMount cause).item.item.lifecycle =
      ticket.isCurrent l.item.item.lifecycle := by
  rw [h.giveUpMount_eq cause]
  split
  · next hu =>
    have hstate : l.item.item.lifecycle.state = .unmounted := hu
    simp [Item.countMount, MountTicket.isCurrent, hstate]
  · rfl

/-- A mount fails of an active item only and leaves everything as it was. An unmount fails of an
unmounted item only and leaves everything as it was but the panel, which it closes. A mount that is
given up counts, if the item was unmounted, and leaves everything else as it was. Each of them
stores at most the view of the catalog that was asked for. -/
theorem Reachable.step_of_error :
    (∀ surroundings,
      ((∃ e, (l.item.mount l.catalog.snapshot.1 surroundings).2.1 = .error e) ↔
        l.item.state = .active) ∧
      ((∃ e, (l.item.mount l.catalog.snapshot.1 surroundings).2.1 = .error e) →
        l.step (.item (.mount surroundings)) = { l with catalog := l.catalog.snapshot.2 })) ∧
    ((∃ e, l.item.unmount.2 = .error e) ↔ l.item.state = .unmounted) ∧
    ((∃ e, l.item.unmount.2 = .error e) →
      l.step (.item .unmount) =
        { l with item := l.item.closed, catalog := l.catalog.snapshot.2 } ∧
      l.item.closed.item = l.item.item ∧ l.item.closed.brightness? = l.item.brightness? ∧
      (l.item.closed = l.item ↔ l.item.isOpen = false)) ∧
    ∀ cause, (∃ e, (l.item.giveUpMount cause).2 = .error e) ∧
      (l.giveUpMount cause =
        if l.item.state = .unmounted then { l with item := l.item.mapItem .countMount } else l) ∧
      ∀ ticket : MountTicket, ticket.isCurrent (l.giveUpMount cause).item.item.lifecycle =
        ticket.isCurrent l.item.item.lifecycle := by
  refine ⟨fun surroundings => ⟨h.mount_error_iff surroundings, fun he => ?_⟩,
    h.unmount_error_iff, fun he => ?_, fun cause => ⟨h.giveUpMount_fails cause,
      h.giveUpMount_eq cause, h.isCurrent_giveUpMount cause⟩⟩
  · exact step_mount_of_active ((h.mount_error_iff surroundings).mp he) surroundings
  · exact ⟨step_unmount_of_unmounted (h.unmount_error_iff.mp he), BarItem.closed_item _,
      BarItem.closed_brightness? _, BarItem.closed_eq_iff⟩

end

theorem Reachable.run (h : l.Reachable) (ops : List LoneOp) : (l.run ops).Reachable := by
  induction ops generalizing l with
  | nil => exact h
  | cons op ops ih => exact ih (h.step op)

theorem untouched_reachable : untouched.Reachable :=
  .start .settings { id := "a", template := "'x'" } ⟨[], {}, some [], true⟩ (.empty 64) false false
    .empty ⟨none, none, []⟩

/-- A second mount finds the panel open and two queries pending; a second unmount finds it closed. -/
theorem Reachable.step_of_error_untouched :
    (untouched.run [.item (.mount []), .item .click]).item.isOpen = true ∧
    (untouched.run [.item (.mount []), .item .click]).pending.length = 2 ∧
    (untouched.run [.item (.mount []), .item .click, .item (.mount [])]) =
      { untouched.run [.item (.mount []), .item .click] with
        catalog := (untouched.run [.item (.mount []), .item .click]).catalog.snapshot.2 } ∧
    (untouched.run [.item (.mount []), .item .unmount, .item .unmount]).item =
      (untouched.run [.item (.mount []), .item .unmount]).item := by
  have hmounted := (untouched_reachable.run [.item (.mount []), .item .click]).step_of_error
  have hunmounted := (untouched_reachable.run [.item (.mount []), .item .unmount]).step_of_error
  obtain ⟨hfails, hmount⟩ := hmounted.1 []
  obtain ⟨-, hfails', hunmount, -⟩ := hunmounted
  obtain ⟨hstep, -, -, hclosed⟩ := hunmount (hfails'.mpr rfl)
  exact ⟨rfl, rfl, hmount (hfails.mpr rfl), (congrArg LoneItem.item hstep).trans (hclosed.mpr rfl)⟩

/-- The panel of an item that was never mounted is closed by an unmount that fails. -/
theorem Reachable.unmount_error_closes :
    (untouched.run [.item (.settings (.setOpen true))]).Reachable ∧
    (untouched.run [.item (.settings (.setOpen true))]).item.unmount.2 =
      .error (.lifecycle (.invalidTransition .unmounted .unmounted)) ∧
    (untouched.run [.item (.settings (.setOpen true))]).item.isOpen = true ∧
    (untouched.run [.item (.settings (.setOpen true)), .item .unmount]).item.isOpen = false ∧
    ¬(∀ l : LoneItem, l.Reachable → (∃ e, l.item.unmount.2 = .error e) →
      (l.step (.item .unmount)).item.isOpen = l.item.isOpen) := by
  have hreachable := untouched_reachable.run [.item (.settings (.setOpen true))]
  refine ⟨hreachable, rfl, rfl, rfl, fun h => ?_⟩
  have hopen := h _ hreachable ⟨_, rfl⟩
  cases hopen

end LoneItem

end TemplateBar
