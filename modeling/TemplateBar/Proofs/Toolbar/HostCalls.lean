import TemplateBar.Proofs.Toolbar.Soundness

/-!
# The calls that a host sees

What an operation asks of the host is read off the item: a settings item asks for the brightness
when it is mounted, when its panel opens or closes and when it is told to, a click asks for the
effects of the click template's value, and a button for its command. The calls that a host has seen,
followed by those that pending tasks will make, are at all times what was asked for so far.
-/
namespace TemplateBar

/-- The call of an effect with a known command. -/
def requestOf (command : String) (args : Json) : List HostCall :=
  ((HostCommand.ofName? command).map (⟨·, args⟩)).toList

/-- The calls that a click's value asks for. -/
def requestsOfValue : ItemValue → List HostCall
  | .effect command args => requestOf command args
  | .array items => items.flatMap fun
    | .effect command args => requestOf command args
    | _ => []
  | _ => []

/-- What the click template gives on the scope as it is, within the budgets of all templates. -/
def Item.clickValue? (i : Item) : Option ItemValue :=
  if i.state = .active then i.onClick.bind fun t => (t.evaluate i.scope i.context.limits).toOption
  else none

namespace BarItem

def isOpen? (b : BarItem) : Option Bool := b.settings?.map (·.isOpen)

/-- The operation makes a settings item ask for the brightness. -/
def asks (b : BarItem) (icons : IconView) (op : BarItemOp) : Bool :=
  b.settings?.isSome &&
    match op with
    | .mount _ => b.begins icons op
    | .click | .settings (.setOpen _) | .settings .blur =>
      b.state == .active && (b.act icons op).item.isOpen? != b.isOpen?
    | .settings .refreshBrightness => b.state == .active
    | _ => false

/-- The calls that an operation asks for. -/
def requests (b : BarItem) (icons : IconView) (op : BarItemOp) : List HostCall :=
  (if b.asks icons op then [Host.brightnessQuery] else []) ++
    match op with
    | .click => b.item.clickValue?.toList.flatMap requestsOfValue
    | .settings (.press command) =>
      if b.settings?.isSome ∧ ¬command.isQuery then [⟨command, .null⟩] else []
    | _ => []

end BarItem

namespace Item

variable {i : Item}

theorem calls_tasksOf (h : i.context.spawns = true) (calls : List HostCall) :
    (i.tasksOf calls).map HostTask.hostCall = calls := by
  rw [tasksOf, if_pos h, List.map_map]
  exact List.map_id calls

theorem filterMap_effects (v : ItemValue) :
    (effects v).filterMap callOfEffect = requestsOfValue v := by
  have hcall (command : String) (args : Json) :
      (callOfEffect (command, args)).toList = requestOf command args := rfl
  cases v with
  | effect command args =>
    rw [effects, requestsOfValue, ← hcall, List.filterMap_eq_flatMap_toList, List.flatMap_singleton]
  | array items =>
    rw [effects, requestsOfValue, List.filterMap_filterMap, List.filterMap_eq_flatMap_toList]
    refine List.flatMap_congr fun v _ => ?_
    cases v <;> rfl
  | _ => rfl

theorem calls_click (h : i.Coherent) (hs : i.context.spawns = true) :
    i.click.2.map HostTask.hostCall = i.clickValue?.toList.flatMap requestsOfValue := by
  by_cases ha : i.state = .active
  · rw [h.click_of_active ha, calls_tasksOf hs, clickValue?, if_pos ha]
    cases i.onClick with
    | none => rfl
    | some t =>
      cases he : t.evaluate i.scope i.context.limits with
      | error e => simp [clickCalls, he, Except.toOption]
      | ok v => simp [clickCalls, he, Except.toOption, filterMap_effects]
  · simp [click, clickValue?, ha]

end Item

namespace SettingsItem

variable {s : SettingsItem}

theorem calls_refreshBrightness (h : s.item.Coherent) (hs : s.item.context.spawns = true) :
    s.refreshBrightness.map HostTask.hostCall =
      if s.item.state = .active then [Host.brightnessQuery] else [] := by
  rw [refreshBrightness, if_pos hs, Lifecycle.ticket?]
  change ((if s.item.state = .active then _ else _ : Option MountTicket).map _).toList.map _ = _
  split
  · next ha =>
    obtain ⟨id, hid⟩ := Option.isSome_iff_exists.mp (h.mountId ha)
    simp [hid, HostTask.hostCall]
  · rfl

theorem calls_setOpen (h : s.item.Coherent) (hs : s.item.context.spawns = true) (isOpen : Bool) :
    (s.setOpen isOpen).2.map HostTask.hostCall =
      if s.item.state = .active ∧ isOpen ≠ s.isOpen then [Host.brightnessQuery] else [] := by
  unfold setOpen
  by_cases ho : s.isOpen = isOpen
  · simp [ho]
  · have hr := calls_refreshBrightness (s := { s with isOpen }) h hs
    simp only [ho, if_false, hr]
    simp [Ne.symm ho]

theorem calls_mount (h : s.item.Coherent) (hs : s.item.context.spawns = true) (icons : IconView)
    (surroundings : Dict String) :
    (s.mount icons surroundings).2.2.map HostTask.hostCall =
      if s.item.state = .unmounted then [Host.brightnessQuery] else [] := by
  rcases h.state with hu | ha
  · have hm : (s.item.mounted icons surroundings).Coherent := by
      have hstep := h.step (.mount icons surroundings)
      rwa [Item.step, Item.mount_of_unmounted hu] at hstep
    rw [mount, Item.mount_of_unmounted hu, if_pos hu]
    exact calls_refreshBrightness (s := { s with item := s.item.mounted icons surroundings }) hm hs
  · rw [mount, Item.mount_of_ne_unmounted (by simp [ha])]
    simp [ha]

end SettingsItem

namespace BarItem

variable {b : BarItem}

/-- The tasks that an operation leaves make the calls that it asks for. -/
theorem calls_act (h : b.item.Coherent) (hs : b.item.context.spawns = true) (icons : IconView)
    (op : BarItemOp) :
    (b.act icons op).tasks.map HostTask.hostCall = b.requests icons op := by
  cases b with
  | generic i =>
    cases op with
    | click => exact Item.calls_click h hs
    | settings op => cases op <;> rfl
    | _ => rfl
  | settings s =>
    cases op with
    | mount surroundings =>
      have hb := begins_mount (b := settings s) h icons surroundings
      refine (SettingsItem.calls_mount h hs icons surroundings).trans ?_
      have hu : (decide ((settings s).item.state = .unmounted) = true) =
          (s.item.state = .unmounted) := decide_eq_true_eq
      simp [requests, asks, hb, settings?, hu]
    | click =>
      change s.click.2.map HostTask.hostCall = _
      have hc := Item.calls_click (i := s.item) h hs
      rw [s.click_snd, List.map_append, SettingsItem.calls_setOpen h hs, hc]
      simp [requests, asks, settings?, isOpen?, act, click, s.click_fst, state, item]
    | settings op =>
      cases op with
      | setOpen isOpen =>
        refine (SettingsItem.calls_setOpen h hs isOpen).trans ?_
        simp [requests, asks, settings?, isOpen?, act, SettingsItem.act, s.setOpen_fst, state, item]
      | blur =>
        refine (SettingsItem.calls_setOpen h hs false).trans ?_
        simp [requests, asks, settings?, isOpen?, act, SettingsItem.act, SettingsItem.blur,
          s.setOpen_fst, state, item]
      | refreshBrightness =>
        refine (SettingsItem.calls_refreshBrightness h hs).trans ?_
        simp [requests, asks, settings?, state, item]
      | setBrightness value => rfl
      | press command =>
        change (s.press command).map HostTask.hostCall = _
        unfold SettingsItem.press
        split
        · next hq => simp [requests, asks, settings?, hq]
        · next hq =>
          have hc := Item.calls_tasksOf (i := s.item) hs [⟨command, .null⟩]
          simp [hc, requests, asks, settings?, hq]
    | _ => rfl

end BarItem

/-- Tasks are run in the order in which they were left. -/
def BarOp.InOrder : BarOp → Prop
  | .runTask n => n = 0
  | _ => True

namespace Session

/-- The calls that an operation asks for, item by item. -/
def requests (s : Session) (op : BarOp) : List HostCall :=
  s.bar.items.flatMap fun b =>
    match op.reaching b with
    | none => []
    | some op => b.requests s.icons op

/-- The calls that operations ask for, one operation after the other. -/
def requestsOf (s : Session) : List BarOp → List HostCall
  | [] => []
  | op :: ops => s.requests op ++ (s.step op).requestsOf ops

/-- Run all pending tasks in the order in which they were left. -/
def drain (s : Session) : Session := s.run (List.replicate s.pending.length (.runTask 0))

/-- The calls so far and those that the pending tasks will make. -/
def due (s : Session) : List HostCall := s.host.calls ++ s.pending.map (·.task.hostCall)

/-- The toolbar and its items can leave tasks. -/
structure Spawns (s : Session) : Prop where
  context : s.bar.context.spawns = true
  items : ∀ b ∈ s.bar.items, b.item.context.spawns = true

variable {s : Session}

theorem Spawns.step (h : s.Spawns) (hs : s.Sound) (op : BarOp) : (s.step op).Spawns where
  context := by rw [(s.step_frame op).context, BarOp.contextAfter_spawns, h.context]
  items := by
    intro b hb
    rcases mem_items_step hs hb with ⟨b', hb', hitem⟩ | ⟨definition, -, rfl⟩
    · rw [hitem]
      cases op.reaching b' with
      | none => exact h.items b' hb'
      | some o =>
        have hset := b'.act_setup s.icons o
        exact (congrArg (·.context.spawns) hset).trans (h.items b' hb')
    · rw [BarItem.create_item]
      exact h.context

theorem requests_of_not_spread {op : BarOp} (hop : ¬op.IsSpread) (s : Session) :
    s.requests op = [] := by
  refine List.flatMap_eq_nil_iff.mpr fun b _ => ?_
  cases op with
  | push definition => rfl
  | reorder ids => rfl
  | runTask n => rfl
  | _ => exact absurd trivial hop

theorem due_runTask_zero (h : s.Sound) : (s.runTask 0).due = s.due := by
  cases hp : s.pending with
  | nil => rw [runTask_of_none (by simp [hp])]
  | cons p ps =>
    have hn : s.pending[0]? = some p := by simp [hp]
    rw [runTask_of_some hn (h.owned p (List.mem_of_getElem? hn))]
    simp [due, hp]

theorem due_step (h : s.Sound) (hs : s.Spawns) {op : BarOp} (hop : op.InOrder) :
    (s.step op).due = s.due ++ s.requests op := by
  -- What the items carry out leaves tasks for what it asks; other operations ask for nothing.
  by_cases hsp : op.IsSpread
  · have hspread := step_spread h hsp
    have hcalls := (s.step_frame op).calls hsp
    have hpending : ((s.step op).pending.map fun p => p.task.hostCall) =
        (s.pending.map fun p => p.task.hostCall) ++ s.requests op := by
      rw [hspread.pending, List.map_append, List.map_flatMap, requests]
      congr 1
      refine List.flatMap_congr fun b hb => ?_
      rw [reaction, List.map_map]
      cases op.reaching b with
      | none => rfl
      | some o => exact BarItem.calls_act (h.coherent b hb) (hs.items b hb) s.icons o
    rw [due, hcalls, hpending, due, List.append_assoc]
  · rw [requests_of_not_spread hsp, List.append_nil]
    cases op with
    | push definition =>
      by_cases hd : definition.id ∈ s.bar.ids
      · rw [step_push_of_mem hd]
      · rw [step_push_of_not_mem hd]
        rfl
    | reorder ids => rfl
    | runTask n =>
      obtain rfl : n = 0 := hop
      exact due_runTask_zero h
    | _ => exact absurd trivial hsp

theorem due_run (h : s.Sound) (hs : s.Spawns) {ops : List BarOp} (hops : ∀ op ∈ ops, op.InOrder) :
    (s.run ops).due = s.due ++ s.requestsOf ops := by
  induction ops generalizing s with
  | nil => exact (List.append_nil s.due).symm
  | cons op ops ih =>
    have hop := hops op List.mem_cons_self
    rw [run_cons, ih (h.step op) (hs.step h op) fun o ho => hops o (List.mem_cons_of_mem op ho),
      due_step h hs hop, requestsOf, List.append_assoc]

theorem pending_runTask_zero (h : s.Sound) : (s.runTask 0).pending = s.pending.tail := by
  cases hp : s.pending with
  | nil => rw [runTask_of_none (by simp [hp]), hp]; rfl
  | cons p ps =>
    have hn : s.pending[0]? = some p := by simp [hp]
    rw [runTask_of_some hn (h.owned p (List.mem_of_getElem? hn))]
    simp [hp]

theorem pending_run_replicate (h : s.Sound) (n : Nat) :
    (s.run (List.replicate n (.runTask 0))).pending = s.pending.drop n := by
  induction n generalizing s with
  | zero => rfl
  | succ n ih =>
    rw [List.replicate_succ, run_cons]
    change ((s.runTask 0).run _).pending = _
    rw [ih (h.runTask 0), pending_runTask_zero h, List.drop_tail]

theorem pending_drain (h : s.Sound) : s.drain.pending = [] := by
  rw [drain, pending_run_replicate h, List.drop_length]

theorem due_drain (h : s.Sound) : s.drain.due = s.due := by
  have hrun (n : Nat) {s : Session} (h : s.Sound) :
      (s.run (List.replicate n (.runTask 0))).due = s.due := by
    induction n generalizing s with
    | zero => rfl
    | succ n ih =>
      rw [List.replicate_succ, run_cons]
      exact (ih (h.runTask 0)).trans (due_runTask_zero h)
  exact hrun s.pending.length h

theorem spawns_start (context : ItemContext) (host : Host) (h : context.spawns = true) :
    (start context host).Spawns where
  context := h
  items := fun b hb => by cases hb

end Session

end TemplateBar
