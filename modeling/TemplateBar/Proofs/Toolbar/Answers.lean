import TemplateBar.Proofs.Toolbar.HostCalls

/-!
# What the host answers

The answers of a host reach nothing but the brightness that settings items hold, and no operation
asks for more or less because of it. So the calls that a host sees do not depend on what it answered
to earlier ones, failures included.
-/
namespace TemplateBar

namespace BarItem

/-- The item apart from the brightness that it holds. -/
def withoutBrightness : BarItem → BarItem
  | generic i => generic i
  | settings s => settings { s with brightness := .none }

@[simp] theorem withoutBrightness_item (b : BarItem) : b.withoutBrightness.item = b.item := by
  cases b <;> rfl

theorem withoutBrightness_id (b : BarItem) : b.withoutBrightness.id = b.id :=
  congrArg Item.id b.withoutBrightness_item

theorem withoutBrightness_runTask (b : BarItem) (host : Host) (task : HostTask) :
    (b.runTask host task).1.withoutBrightness = b.withoutBrightness := by
  cases b with
  | generic i => cases task <;> rfl
  | settings s =>
    cases task with
    | call c => rfl
    | queryBrightness id ticket =>
      change (settings (s.receive ticket host.fetchBrightness.1)).withoutBrightness = _
      rw [s.receive_fetched]
      split
      · split <;> rfl
      · rfl

theorem reaching_withoutBrightness (op : BarOp) (b : BarItem) :
    op.reaching b.withoutBrightness = op.reaching b := by
  cases b <;> rfl

section

variable (b : BarItem) (icons : IconView) (op : BarItemOp)

theorem withoutBrightness_act :
    (b.withoutBrightness.act icons op).item.withoutBrightness =
      (b.act icons op).item.withoutBrightness := by
  cases b with
  | generic i => rfl
  | settings s =>
    cases op with
    | mount surroundings =>
      simp only [withoutBrightness, act, mount, SettingsItem.mount_fst]
    | click => simp only [withoutBrightness, act, click, SettingsItem.click_fst]
    | settings op =>
      cases op with
      | setOpen isOpen =>
        simp only [withoutBrightness, act, SettingsItem.act, SettingsItem.setOpen_fst]
      | blur =>
        simp only [withoutBrightness, act, SettingsItem.act, SettingsItem.blur,
          SettingsItem.setOpen_fst]
      | _ => rfl
    | _ => rfl

theorem tasks_act_withoutBrightness :
    (b.withoutBrightness.act icons op).tasks = (b.act icons op).tasks := by
  cases b with
  | generic i => rfl
  | settings s =>
    have hopen (isOpen : Bool) :
        (SettingsItem.setOpen { s with brightness := .none } isOpen).2 = (s.setOpen isOpen).2 := by
      unfold SettingsItem.setOpen
      simp only
      split <;> rfl
    cases op with
    | mount surroundings =>
      change (SettingsItem.mount { s with brightness := .none } icons surroundings).2.2 =
        (s.mount icons surroundings).2.2
      unfold SettingsItem.mount
      rcases s.item.mount icons surroundings with ⟨item, e | ⟨⟩⟩ <;> rfl
    | click =>
      change (SettingsItem.click { s with brightness := .none }).2 = s.click.2
      rw [SettingsItem.click_snd, SettingsItem.click_snd, hopen]
    | settings op =>
      cases op with
      | setOpen isOpen => exact hopen isOpen
      | blur => exact hopen false
      | _ => rfl
    | _ => rfl

theorem isOpen?_withoutBrightness : b.withoutBrightness.isOpen? = b.isOpen? := by
  cases b <;> rfl

theorem begins_withoutBrightness : b.withoutBrightness.begins icons op = b.begins icons op := by
  cases b with
  | generic i => rfl
  | settings s =>
    cases op with
    | mount surroundings =>
      change (SettingsItem.mount { s with brightness := .none } icons surroundings).2.1.isOk =
        (s.mount icons surroundings).2.1.isOk
      rw [SettingsItem.mount_result, SettingsItem.mount_result]
    | _ => rfl

theorem requests_withoutBrightness :
    b.withoutBrightness.requests icons op = b.requests icons op := by
  have hopen : (b.withoutBrightness.act icons op).item.isOpen? =
      (b.act icons op).item.isOpen? := by
    rw [← isOpen?_withoutBrightness, withoutBrightness_act, isOpen?_withoutBrightness]
  have hkind : b.withoutBrightness.settings?.isSome = b.settings?.isSome := by
    cases b <;> rfl
  have hstate : b.withoutBrightness.state = b.state := by
    rw [state, withoutBrightness_item, state]
  unfold requests asks
  rw [begins_withoutBrightness, hopen, isOpen?_withoutBrightness, hkind, hstate,
    withoutBrightness_item]

end

end BarItem

/-- The operation changes what the host answers. -/
def BarOp.isAnswer : BarOp → Bool
  | .answerWith _ _ => true
  | _ => false

namespace Session

/-- Two sessions that differ only in what their hosts answered, their cache and what was seen. -/
structure Alike (s s' : Session) : Prop where
  items : s.bar.items.map BarItem.withoutBrightness = s'.bar.items.map BarItem.withoutBrightness
  context : s.bar.context = s'.bar.context
  glyphs : s.bar.catalog.glyphs = s'.bar.catalog.glyphs
  pending : s.pending = s'.pending

section

variable {s s' : Session}

theorem Alike.ids (h : Alike s s') : s.bar.ids = s'.bar.ids := by
  have hids (t : Toolbar) : t.ids = (t.items.map BarItem.withoutBrightness).map BarItem.id := by
    rw [List.map_map]
    exact List.map_congr_left fun b _ => b.withoutBrightness_id.symm
  rw [hids, hids, h.items]

/-- What is put together from the items without their brightness is the same. -/
theorem Alike.flatMap {α : Type} (h : Alike s s') {f : BarItem → List α}
    (hf : ∀ b, f b.withoutBrightness = f b) : s.bar.items.flatMap f = s'.bar.items.flatMap f := by
  have hmap (bs : List BarItem) : bs.flatMap f = (bs.map BarItem.withoutBrightness).flatMap f := by
    rw [List.flatMap_map]
    exact List.flatMap_congr fun b _ => (hf b).symm
  rw [hmap, h.items, ← hmap]

theorem Alike.map {f : BarItem → BarItem} (h : Alike s s')
    (hf : ∀ b, (f b.withoutBrightness).withoutBrightness = (f b).withoutBrightness) :
    (s.bar.items.map f).map BarItem.withoutBrightness =
      (s'.bar.items.map f).map BarItem.withoutBrightness := by
  have hmap (bs : List BarItem) : (bs.map f).map BarItem.withoutBrightness =
      (bs.map BarItem.withoutBrightness).map fun b => (f b).withoutBrightness := by
    rw [List.map_map, List.map_map]
    exact List.map_congr_left fun b _ => (hf b).symm
  rw [hmap, h.items, ← hmap]

variable (hs : s.Sound) (hs' : s'.Sound)

include hs hs'

theorem Alike.icons (h : Alike s s') : s.icons = s'.icons := by
  rw [hs.icons_eq, hs'.icons_eq, h.glyphs]

theorem Alike.requests (h : Alike s s') (op : BarOp) : s.requests op = s'.requests op := by
  unfold Session.requests
  rw [h.icons hs hs']
  refine h.flatMap fun b => ?_
  rw [BarItem.reaching_withoutBrightness]
  cases op.reaching b with
  | none => rfl
  | some o => exact b.requests_withoutBrightness s'.icons o

theorem Alike.push (h : Alike s s') (definition : ModuleDefinition) :
    Alike (s.step (.push definition)) (s'.step (.push definition)) := by
  by_cases hd : definition.id ∈ s.bar.ids
  · rwa [step_push_of_mem hd, step_push_of_mem (h.ids ▸ hd)]
  · have hdepth : s.bar.cache.maxDepth = s'.bar.cache.maxDepth := by
      rw [hs.depth, hs'.depth, h.context]
    have hnew := BarItem.create_fst_congr definition s.bar.context hs.cache hs'.cache hdepth
    rw [step_push_of_not_mem hd, step_push_of_not_mem (h.ids ▸ hd)]
    refine ⟨?_, h.context, h.glyphs, h.pending⟩
    rw [h.context] at hnew
    simp only [List.map_append, h.items, h.context, hnew]

theorem Alike.runTask (h : Alike s s') (n : Nat) : Alike (s.runTask n) (s'.runTask n) := by
  cases hn : s.pending[n]? with
  | none => rwa [runTask_of_none hn, runTask_of_none (h.pending ▸ hn)]
  | some p =>
    have hn' : s'.pending[n]? = some p := h.pending ▸ hn
    have hsame (t : Session) :
        (t.bar.modify p.owner fun b => (b.runTask t.host p.task).1).items.map
            BarItem.withoutBrightness = t.bar.items.map BarItem.withoutBrightness := by
      rw [Toolbar.modify, List.map_map]
      refine List.map_congr_left fun b _ => ?_
      simp only [Function.comp_apply]
      split
      · exact b.withoutBrightness_runTask t.host p.task
      · rfl
    rw [runTask_of_some hn (hs.owned p (List.mem_of_getElem? hn)),
      runTask_of_some hn' (hs'.owned p (List.mem_of_getElem? hn'))]
    exact ⟨(hsame s).trans (h.items.trans (hsame s').symm), h.context, h.glyphs,
      congrArg (·.eraseIdx n) h.pending⟩

theorem Alike.step_of_spread (h : Alike s s') {op : BarOp} (hop : op.IsSpread) :
    Alike (s.step op) (s'.step op) := by
  have hicons := h.icons hs hs'
  have hspread := step_spread hs hop
  have hspread' := step_spread hs' hop
  refine ⟨?_, ?_, ?_, ?_⟩
  · rw [hspread.items, hspread'.items]
    unfold reaction
    rw [hicons]
    refine h.map fun b => ?_
    rw [BarItem.reaching_withoutBrightness]
    cases op.reaching b with
    | none => simp only [BarItem.react]; cases b <;> rfl
    | some o => exact b.withoutBrightness_act s'.icons o
  · rw [(s.step_frame op).context, (s'.step_frame op).context, h.context]
  · rw [(s.step_frame op).glyphs, (s'.step_frame op).glyphs, h.glyphs]
  · rw [hspread.pending, hspread'.pending, h.pending]
    unfold reaction
    rw [hicons]
    congr 1
    refine h.flatMap fun b => ?_
    rw [BarItem.reaching_withoutBrightness, BarItem.withoutBrightness_id]
    cases op.reaching b with
    | none => rfl
    | some o => exact congrArg (List.map _) (b.tasks_act_withoutBrightness s'.icons o)

theorem Alike.step (h : Alike s s') (op : BarOp) : Alike (s.step op) (s'.step op) := by
  cases op with
  | push definition => exact h.push hs hs' definition
  | reorder ids =>
    refine ⟨?_, h.context, h.glyphs, h.pending⟩
    change (Toolbar.reorderItems ids s.bar.items).map _ = (Toolbar.reorderItems ids _).map _
    rw [← Toolbar.reorderItems_map BarItem.withoutBrightness_id, h.items,
      Toolbar.reorderItems_map BarItem.withoutBrightness_id]
  | runTask n => exact h.runTask hs hs' n
  | _ => exact h.step_of_spread hs hs' trivial

theorem Alike.requestsOf (h : Alike s s') (ops : List BarOp) :
    s.requestsOf ops = s'.requestsOf (ops.filter fun op => !op.isAnswer) := by
  induction ops generalizing s s' with
  | nil => rfl
  | cons op ops ih =>
    -- A change of the answers is a step of one session only, and both stay alike.
    rw [Session.requestsOf]
    cases ha : op.isAnswer with
    | true =>
      cases op with
      | answerWith brightness script =>
        have hnone : s.requests (.answerWith brightness script) = [] :=
          List.flatMap_eq_nil_iff.mpr fun b _ => rfl
        have hstep : Alike (s.step (.answerWith brightness script)) s' :=
          ⟨h.items, h.context, h.glyphs, h.pending⟩
        rw [List.filter_cons_of_neg (by simp [ha]), hnone, List.nil_append]
        exact ih (hs.step _) hs' hstep
      | _ => cases ha
    | false =>
      rw [List.filter_cons_of_pos (by simp [ha]), Session.requestsOf, h.requests hs hs',
        ih (hs.step op) (hs'.step op) (h.step hs hs' op)]

end

/-- Once all tasks have run, in the order in which they were left, the host has seen what the
operations asked for, and it would have been asked for the same whatever it had answered. -/
theorem calls_drain_run (context : ItemContext) (host : Host) (hspawns : context.spawns = true)
    {ops : List BarOp} (hops : ∀ op ∈ ops, op.InOrder) :
    ((start context host).run ops).drain.pending = [] ∧
    ((start context host).run ops).drain.host.calls =
      host.calls ++ (start context host).requestsOf ops ∧
    ∀ host', (start context host').requestsOf (ops.filter fun op => !op.isAnswer) =
      (start context host).requestsOf ops := by
  have hs := sound_start context host
  have hrun := hs.run ops
  have hempty := pending_drain hrun
  refine ⟨hempty, ?_, fun host' => ?_⟩
  · have hdue : ((start context host).run ops).drain.due =
        ((start context host).run ops).due := due_drain hrun
    have hcalls : ((start context host).run ops).drain.due =
        ((start context host).run ops).drain.host.calls := by
      rw [due, hempty]
      exact List.append_nil _
    rw [← hcalls, hdue, due_run hs (spawns_start context host hspawns) hops]
    exact congrArg (· ++ _) (List.append_nil host.calls)
  · exact (Alike.requestsOf hs (sound_start context host') ⟨rfl, rfl, rfl, rfl⟩ ops).symm

/-- A settings item is mounted and clicked, a button is pressed after the host began to fail, and a
last click comes when the item is gone. -/
def panelOps : List BarOp :=
  [.push
      { id := "a", template := "", kind := .settings
        onClick := some "[invoke('log_out'), 1, invoke('shout')]" },
    .mountAll [], .click "a", .runTask 0, .answerWith none (some (.failing "gone")),
    .item "a" (.settings (.press .suspend)), .unmountAll, .click "a"]

theorem calls_drain_panelOps :
    (∀ op ∈ panelOps, op.InOrder) ∧
    ((start ⟨[], {}, none, true⟩ ⟨none, none, []⟩).run panelOps).drain.pending = [] ∧
    ((start ⟨[], {}, none, true⟩ ⟨none, none, []⟩).run panelOps).drain.host.calls.map (·.command) =
      [.getMainMonitorBrightness, .getMainMonitorBrightness, .logOut, .suspend] := by
  have hops : ∀ op ∈ panelOps, op.InOrder := by simp [panelOps, BarOp.InOrder]
  obtain ⟨hempty, hcalls, -⟩ := calls_drain_run ⟨[], {}, none, true⟩ ⟨none, none, []⟩ rfl hops
  refine ⟨hops, hempty, ?_⟩
  rw [hcalls]
  decide +kernel

end Session
end TemplateBar
