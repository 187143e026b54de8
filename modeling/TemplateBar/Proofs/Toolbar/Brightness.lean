import TemplateBar.Proofs.Toolbar.Lone

/-!
# The brightness of a settings item

A settings item holds the brightness that was set last or that the host reported to a query of the
current mount. The invariant `Ticketed` ties the ticket of every pending query to the mount that the
query was left in, so a query that outlived its mount is told from one of the mount after it.
-/
namespace TemplateBar

theorem Lifecycle.generation_of_ticket? {l : Lifecycle} {ticket : MountTicket}
    (h : l.ticket? = some ticket) : ticket.generation = l.generation := by
  unfold ticket? at h
  split at h
  · obtain ⟨id, -, rfl⟩ := Option.map_eq_some_iff.mp h
    rfl
  · cases h

namespace BarItem

/-- An item stays of its kind. -/
def IsSettings (b : BarItem) : Prop := ∃ s, b = settings s

theorem IsSettings.act {b : BarItem} (h : b.IsSettings) (icons : IconView) (op : BarItemOp) :
    (b.act icons op).item.IsSettings := by
  obtain ⟨s, rfl⟩ := h
  cases op <;> exact ⟨_, rfl⟩

theorem IsSettings.runTask {b : BarItem} (h : b.IsSettings) (host : Host) (task : HostTask) :
    (b.runTask host task).1.IsSettings := by
  obtain ⟨s, rfl⟩ := h
  cases task <;> exact ⟨_, rfl⟩

end BarItem

namespace LoneItem

/-- The invariant of runs. -/
structure Ticketed (l : LoneItem) : Prop where
  coherent : l.item.item.Coherent
  settings : l.item.IsSettings
  mounts : l.item.item.lifecycle.generation = l.mounts
  tickets : ∀ p ∈ l.pending, ∀ id ticket, p.task = .queryBrightness id ticket →
    ticket.generation = p.mount

variable {l : LoneItem} {n : Nat} {p : PendingTask}

theorem runTask_of_none (h : l.pending[n]? = none) : l.runTask n = l := by
  simp only [runTask, h]

theorem runTask_item (h : l.pending[n]? = some p) :
    (l.runTask n).item = (l.item.runTask l.host p.task).1 := by
  simp only [runTask, h]

/-- Running a task keeps of the item what it keeps whichever task it is. -/
theorem runTask_item_congr {α : Type} (f : BarItem → α)
    (h : ∀ host task, f (l.item.runTask host task).1 = f l.item) (n : Nat) :
    f (l.runTask n).item = f l.item := by
  cases hp : l.pending[n]? with
  | none => rw [runTask_of_none hp]
  | some p =>
    rw [runTask_item hp]
    exact h _ _

@[simp] theorem item_runTask (l : LoneItem) (n : Nat) : (l.runTask n).item.item = l.item.item :=
  runTask_item_congr BarItem.item l.item.runTask_item n

theorem Ticketed.act (h : l.Ticketed) (op : BarItemOp) : (l.act op).Ticketed := by
  have hm : (l.act op).item.item.lifecycle.generation = l.mountsAfter op := by
    rw [LoneItem.act, BarItem.act_generation h.coherent, h.mounts, mountsAfter]
  refine
    { coherent := BarItem.coherent_act h.coherent _ op
      settings := h.settings.act _ op
      mounts := hm
      tickets := ?_ }
  intro p hp id ticket ht
  -- A new query is counted under the mount that the operation leaves the item in.
  rcases List.mem_append.mp hp with hp | hp
  · exact h.tickets p hp id ticket ht
  · obtain ⟨task, htask, rfl⟩ := List.mem_map.mp hp
    have hleft := BarItem.leftAt_act htask
    rw [show task = .queryBrightness id ticket from ht] at hleft
    exact (Lifecycle.generation_of_ticket? hleft.2).trans hm

theorem Ticketed.runTask (h : l.Ticketed) (n : Nat) : (l.runTask n).Ticketed := by
  cases hp : l.pending[n]? with
  | none => rwa [runTask_of_none hp]
  | some p =>
    have hitem : (l.runTask n).item.item = l.item.item := l.item_runTask n
    have hpending : (l.runTask n).pending = l.pending.eraseIdx n := by
      simp only [LoneItem.runTask, hp]
    have hmounts : (l.runTask n).mounts = l.mounts := by
      simp only [LoneItem.runTask, hp]
    exact
      { coherent := hitem ▸ h.coherent
        settings := by rw [runTask_item hp]; exact h.settings.runTask _ _
        mounts := by rw [hitem, hmounts, h.mounts]
        tickets := fun q hq => h.tickets q (List.mem_of_mem_eraseIdx (hpending ▸ hq)) }

theorem Ticketed.step (h : l.Ticketed) (op : LoneOp) : (l.step op).Ticketed := by
  cases op with
  | item op => exact h.act op
  | registerIcon name glyph =>
    exact ⟨h.coherent, h.settings, h.mounts, h.tickets⟩
  | answerWith brightness script =>
    exact ⟨h.coherent, h.settings, h.mounts, h.tickets⟩
  | runTask n => exact h.runTask n

theorem Ticketed.run (h : l.Ticketed) (ops : List LoneOp) : (l.run ops).Ticketed := by
  induction ops generalizing l with
  | nil => exact h
  | cons op ops ih => exact ih (h.step op)

/-- The ticket of a pending query is current exactly while the mount that left the query lasts. -/
theorem Ticketed.isCurrent_iff (h : l.Ticketed) (hp : p ∈ l.pending) {id : String}
    {ticket : MountTicket} (ht : p.task = .queryBrightness id ticket) :
    ticket.isCurrent l.item.item.lifecycle = true ↔
      p.mount = l.mounts ∧ l.item.state = .active := by
  have hg := h.tickets p hp id ticket ht
  simp only [MountTicket.isCurrent, Bool.and_eq_true, decide_eq_true_eq, hg, h.mounts]
  exact ⟨fun hc => ⟨hc.2.symm, hc.1⟩, fun hc => ⟨hc.2, hc.1.symm⟩⟩

/-- The answer to a query of the current mount is kept. -/
theorem Ticketed.brightness_of_current (h : l.Ticketed) (hp : l.pending[n]? = some p)
    (hq : p.task.IsQuery) (hm : p.mount = l.mounts) (ha : l.item.state = .active)
    {answer : Brightness} (hr : l.host.reported? = some answer) :
    (l.runTask n).item.brightness? = some answer := by
  obtain ⟨s, hs⟩ := h.settings
  cases ht : p.task with
  | call c => simp [ht, HostTask.IsQuery] at hq
  | queryBrightness id ticket =>
    have hc := (h.isCurrent_iff (List.mem_of_getElem? hp) ht).mpr ⟨hm, ha⟩
    rw [hs] at hc
    rw [runTask_item hp, ht, hs]
    change some (s.receive ticket l.host.fetchBrightness.1).brightness = _
    rw [s.receive_fetched, hr]
    simp only [BarItem.item] at hc
    simp only [hc, if_true]

/-- All other tasks leave the item as it is. -/
theorem Ticketed.item_of_not_current (h : l.Ticketed) (hp : l.pending[n]? = some p)
    (hn : ¬(p.task.IsQuery ∧ p.mount = l.mounts ∧ l.item.state = .active ∧
      l.host.reported?.isSome)) : (l.runTask n).item = l.item := by
  obtain ⟨s, hs⟩ := h.settings
  rw [runTask_item hp]
  cases ht : p.task with
  | call c => rfl
  | queryBrightness id ticket =>
    have hi := h.isCurrent_iff (List.mem_of_getElem? hp) ht
    rw [hs]
    rw [hs] at hi
    change BarItem.settings (s.receive ticket l.host.fetchBrightness.1) = _
    rw [s.receive_fetched]
    cases hr : l.host.reported? with
    | none => rfl
    | some b =>
      have hc : ¬ticket.isCurrent s.item.lifecycle = true := by
        intro hc
        obtain ⟨hm, ha⟩ := hi.mp hc
        exact hn ⟨by simp [ht, HostTask.IsQuery], hm, hs ▸ ha, by simp [hr]⟩
      simp only [hc]
      rfl

theorem Ticketed.item_of_stale (h : l.Ticketed) (hp : l.pending[n]? = some p)
    (hstale : p.mount ≠ l.mounts ∨ l.item.state ≠ .active ∨ l.host.reported? = none) :
    (l.runTask n).item = l.item := by
  refine h.item_of_not_current hp ?_
  rintro ⟨-, hm, ha, hs⟩
  rcases hstale with hn | hn | hn
  · exact hn hm
  · exact hn ha
  · simp [hn] at hs

theorem Ticketed.brightness_of_runTask (h : l.Ticketed) (n : Nat)
    (hchange : (l.runTask n).item.brightness? ≠ l.item.brightness?) :
    ∃ p answer, l.pending[n]? = some p ∧ p.task.IsQuery ∧ p.mount = l.mounts ∧
      l.item.state = .active ∧ l.host.reported? = some answer ∧
      (l.runTask n).item.brightness? = some answer := by
  cases hp : l.pending[n]? with
  | none => exact absurd (congrArg (·.item.brightness?) (runTask_of_none hp)) hchange
  | some p =>
    by_cases hq : p.task.IsQuery ∧ p.mount = l.mounts ∧ l.item.state = .active ∧
        l.host.reported?.isSome
    · obtain ⟨hquery, hm, ha, hs⟩ := hq
      obtain ⟨answer, hr⟩ := Option.isSome_iff_exists.mp hs
      exact ⟨p, answer, rfl, hquery, hm, ha, hr, h.brightness_of_current hp hquery hm ha hr⟩
    · exact absurd (congrArg BarItem.brightness? (h.item_of_not_current hp hq)) hchange

/-- What changes the brightness is a value that is set or the answer to a current query. -/
theorem Ticketed.cause_of_change (h : l.Ticketed) {op : LoneOp}
    (hchange : (l.step op).item.brightness? ≠ l.item.brightness?) :
    (∃ value, op = .item (.settings (.setBrightness value))) ∨
      ∃ n p answer, op = .runTask n ∧ l.pending[n]? = some p ∧ p.task.IsQuery ∧
        p.mount = l.mounts ∧ l.item.state = .active ∧ l.host.reported? = some answer ∧
        (l.step op).item.brightness? = some answer := by
  cases op with
  | item op =>
    by_contra hset
    refine hchange (BarItem.act_brightness _ _ fun value hv => hset (Or.inl ⟨value, ?_⟩))
    rw [hv]
  | registerIcon name glyph => exact absurd rfl hchange
  | answerWith brightness script => exact absurd rfl hchange
  | runTask n =>
    obtain ⟨p, answer, hcurrent⟩ := h.brightness_of_runTask n hchange
    exact Or.inr ⟨n, p, answer, rfl, hcurrent⟩

section

variable (definition : ModuleDefinition) (context : ItemContext) (cache : TemplateCache)
  (clicks keys : Bool) (catalog : IconCatalog) (host : Host)

/-- A settings item as it is made, before any operation. -/
def startSettings : LoneItem :=
  start (.settings (.create (.fresh definition context cache clicks keys))) catalog host

theorem startSettings_ticketed :
    (startSettings definition context cache clicks keys catalog host).Ticketed where
  coherent := Item.coherent_of_initial rfl rfl
  settings := ⟨_, rfl⟩
  mounts := rfl
  tickets := fun p hp => by cases hp

/-- Whatever was done before, one more step changes the brightness only by setting it or by running
a query of the current mount, while active, to which the host reports a brightness; then that is the
brightness. A query of an earlier mount, one run while the item is not active and one that fails or
is answered with something else change nothing about the item. -/
theorem brightness_of_run (ops : List LoneOp) :
    let l := (startSettings definition context cache clicks keys catalog host).run ops
    (∀ op, (l.step op).item.brightness? ≠ l.item.brightness? →
      (∃ value, op = .item (.settings (.setBrightness value))) ∨
      ∃ n p answer, op = .runTask n ∧ l.pending[n]? = some p ∧ p.task.IsQuery ∧
        p.mount = l.mounts ∧ l.item.state = .active ∧ l.host.reported? = some answer ∧
        (l.step op).item.brightness? = some answer) ∧
    (∀ n p answer, l.pending[n]? = some p → p.task.IsQuery → p.mount = l.mounts →
      l.item.state = .active → l.host.reported? = some answer →
      (l.step (.runTask n)).item.brightness? = some answer) ∧
    ∀ n p, l.pending[n]? = some p →
      p.mount ≠ l.mounts ∨ l.item.state ≠ .active ∨ l.host.reported? = none →
      (l.step (.runTask n)).item = l.item := by
  intro l
  have h : l.Ticketed :=
    (startSettings_ticketed definition context cache clicks keys catalog host).run ops
  exact ⟨fun op hchange => h.cause_of_change hchange,
    fun n p answer hp hq hm ha hr => h.brightness_of_current hp hq hm ha hr,
    fun n p hp hstale => h.item_of_stale hp hstale⟩

end

/-- A settings item that was mounted twice and has not heard from the host yet. -/
def remounted : LoneItem :=
  (startSettings { id := "a", template := "" } ⟨[], {}, none, true⟩ (.empty 64) false false .empty
    ⟨some ⟨0, 100, 60⟩, none, []⟩).run [.item (.mount []), .item .unmount, .item (.mount [])]

/-- Of its two queries the first one is too late. -/
theorem brightness_of_remounted :
    remounted.pending.map (·.mount) = [1, 2] ∧ remounted.mounts = 2 ∧
    remounted.item.state = .active ∧ remounted.host.reported? = some ⟨0, 100, 60⟩ ∧
    (remounted.step (.runTask 0)).item = remounted.item ∧
    (remounted.step (.runTask 1)).item.brightness? = some ⟨0, 100, 60⟩ := by
  obtain ⟨-, hcurrent, hstale⟩ := brightness_of_run { id := "a", template := "" }
    ⟨[], {}, none, true⟩ (.empty 64) false false .empty ⟨some ⟨0, 100, 60⟩, none, []⟩
    [.item (.mount []), .item .unmount, .item (.mount [])]
  have hr : remounted.host.reported? = some ⟨0, 100, 60⟩ := by decide +kernel
  exact ⟨rfl, rfl, rfl, hr, hstale 0 _ rfl (Or.inl (by decide)),
    hcurrent 1 _ ⟨0, 100, 60⟩ rfl trivial rfl rfl hr⟩

end LoneItem

end TemplateBar
