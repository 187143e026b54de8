import Mathlib.Data.List.InsertIdx
import TemplateBar.Proofs.Toolbar.Soundness

/-!
# Items on one toolbar are independent

Everything that shows of an item on a toolbar shows of the same item standing alone, when it gets
the operations that reach it, the icon registrations and the host's answers. The invariant `Mirrors`
says how the alone item follows the one on the toolbar.
-/
namespace TemplateBar

/-- An element of a list that has a property is found again among those that have it, and taking it
out of the list takes it out of these. -/
theorem filter_eraseIdx_of_pos {α : Type} {f : α → Bool} {xs : List α} {n : Nat} {x : α}
    (hn : xs[n]? = some x) (hx : f x = true) :
    (xs.filter f)[(xs.take n).countP f]? = some x ∧
      (xs.eraseIdx n).filter f = (xs.filter f).eraseIdx ((xs.take n).countP f) := by
  induction xs generalizing n with
  | nil => cases hn
  | cons y ys ih =>
    cases n with
    | zero =>
      obtain rfl : y = x := Option.some.inj hn
      simp [hx]
    | succ n =>
      obtain ⟨hget, herase⟩ := ih hn
      by_cases hy : f y = true
      · simp [hy, hget, herase]
      · simp [hy, hget, herase]

theorem filter_eraseIdx_of_neg {α : Type} {f : α → Bool} {xs : List α} {n : Nat} {x : α}
    (hn : xs[n]? = some x) (hx : f x = false) : (xs.eraseIdx n).filter f = xs.filter f := by
  induction xs generalizing n with
  | nil => cases hn
  | cons y ys ih =>
    cases n with
    | zero =>
      obtain rfl : y = x := Option.some.inj hn
      simp [hx]
    | succ n =>
      rw [List.eraseIdx_cons_succ, List.filter_cons, List.filter_cons, ih hn]

theorem BarItem.runTask_fst_congr (b : BarItem) {host host' : Host}
    (h : host.answers = host'.answers) (task : HostTask) :
    (b.runTask host task).1 = (b.runTask host' task).1 := by
  have ha : host.fetchBrightness.1 = host'.fetchBrightness.1 := by
    obtain ⟨brightness, script, calls⟩ := host
    obtain ⟨brightness', script', calls'⟩ := host'
    obtain ⟨rfl, rfl⟩ := Prod.mk.inj h
    rfl
  cases task with
  | call c => rfl
  | queryBrightness id ticket => exact congrArg (b.receive ticket) ha

namespace LoneItem

variable {l : LoneItem} {n : Nat} {p : PendingTask}

theorem act_of_icons {icons : IconView} (h : l.catalog.snapshot.1 = icons) (op : BarItemOp) :
    (l.act op).item = (l.item.act icons op).item ∧
    (l.act op).pending.map (·.task) = l.pending.map (·.task) ++ (l.item.act icons op).tasks ∧
    (l.act op).events = l.events ++ (l.item.act icons op).events := by
  subst h
  refine ⟨rfl, ?_, rfl⟩
  change (l.pending ++ _).map _ = _
  rw [List.map_append, List.map_map]
  exact congrArg (_ ++ ·) (List.map_id _)

theorem runTask_of_some (h : l.pending[n]? = some p) :
    l.runTask n =
      { l with
        item := (l.item.runTask l.host p.task).1
        host := { l.host with calls := l.host.calls ++ [p.task.hostCall] }
        pending := l.pending.eraseIdx n
        events := l.events ++ [.called p.task.hostCall] } := by
  simp only [runTask, h, BarItem.runTask_snd]
  simp [Host.callsSince]

end LoneItem

namespace Session

/-- What an operation on the toolbar is to the item with the given id, standing alone. A task is
found at the place that it has among the tasks of that item. -/
def aloneOps (s : Session) (id : String) : BarOp → List LoneOp
  | .registerIcon name glyph => [.registerIcon name glyph]
  | .answerWith brightness script => [.answerWith brightness script]
  | .runTask n =>
    if s.pending[n]?.any (·.owner == id) then
      [.runTask ((s.pending.take n).countP (·.owner == id))]
    else []
  | op => ((s.bar.get? id).bind op.reaching).toList.map .item

/-- What operations are to the item, one after the other. -/
def aloneRun (s : Session) (id : String) : List BarOp → List LoneOp
  | [] => []
  | op :: ops => s.aloneOps id op ++ (s.step op).aloneRun id ops

/-- The tasks that an item has left and that have not run. -/
def tasksOf (s : Session) (id : String) : List HostTask :=
  (s.pending.filter (·.owner == id)).map (·.task)

/-- What has shown of an item. -/
def eventsOf (s : Session) (id : String) : List ItemEvent :=
  (s.events.filter (·.1 == id)).map (·.2)

/-- An alone item has the icons and the answers that the toolbar has. -/
structure Shares (s : Session) (l : LoneItem) : Prop where
  glyphs : s.bar.catalog.glyphs = l.catalog.glyphs
  catalog : l.catalog.Reachable
  answers : s.host.answers = l.host.answers

/-- An alone item is as the item on the toolbar, and the same shows of it. -/
structure Mirrors (s : Session) (id : String) (l : LoneItem) : Prop extends Shares s l where
  item : s.bar.get? id = some l.item
  pending : s.tasksOf id = l.pending.map (·.task)
  events : s.eventsOf id = l.events

variable {s : Session} {l : LoneItem} {id : String}

theorem Shares.icons (h : s.Shares l) (hs : s.Sound) : l.catalog.snapshot.1 = s.icons := by
  have hg : l.catalog.snapshot.1.glyphs = l.catalog.glyphs := h.catalog.snapshot_glyphs
  rw [hs.icons_eq, h.glyphs, ← hg]

/-- A registration reaches every item alike. -/
theorem Shares.registerIcon (h : s.Shares l) (name glyph : String) :
    (s.step (.registerIcon name glyph)).Shares (l.step (.registerIcon name glyph)) where
  glyphs := by
    rw [(s.step_frame _).glyphs, h.glyphs]
    exact (l.catalog.register_glyphs name glyph).symm
  catalog := h.catalog.register_getD name glyph
  answers := h.answers

theorem Shares.of_quiet (h : s.Shares l) {op : BarOp} {l' : LoneItem}
    (hg : op.glyphsAfter s.bar.catalog.glyphs = s.bar.catalog.glyphs)
    (ha : op.answersAfter s.host.answers = s.host.answers)
    (hg' : l'.catalog.glyphs = l.catalog.glyphs) (hc : l'.catalog.Reachable)
    (ha' : l'.host.answers = l.host.answers) : (s.step op).Shares l' where
  glyphs := by rw [(s.step_frame op).glyphs, hg, h.glyphs, hg']
  catalog := hc
  answers := by rw [(s.step_frame op).answers, ha, h.answers, ha']

theorem Shares.runTask (h : s.Shares l) (n : Nat) {l' : LoneItem}
    (hc : l'.catalog = l.catalog) (ha : l'.host.answers = l.host.answers) :
    (s.runTask n).Shares l' := by
  change (s.step (.runTask n)).Shares l'
  exact h.of_quiet rfl rfl (congrArg (·.glyphs) hc) (hc ▸ h.catalog) ha

/-- What an operation that the items carry out does to what is seen of one of them. -/
theorem Spread.of_item {s' : Session} {op : BarOp} (hs : s.Sound) (hs' : s'.Sound)
    (h : Spread s s' (s.reaction op)) {b : BarItem} (hb : s.bar.get? id = some b) :
    s'.bar.get? id = some (s.reaction op b).item ∧
    s'.tasksOf id = s.tasksOf id ++ (s.reaction op b).tasks ∧
    s'.eventsOf id = s.eventsOf id ++ (s.reaction op b).events := by
  obtain ⟨hmem, rfl⟩ := hs.distinct.find?_eq_some_iff.mp hb
  refine ⟨?_, ?_, ?_⟩
  · refine hs'.distinct.find?_eq_some_iff.mpr ⟨?_, b.react_id s.icons (op.reaching b)⟩
    rw [h.items]
    exact List.mem_map_of_mem hmem
  · have hone : (s.bar.items.flatMap fun b' =>
        (s.reaction op b').tasks.map (LeftTask.mk b'.id)).filter (·.owner == b.id) =
          (s.reaction op b).tasks.map (LeftTask.mk b.id) := by
      rw [List.filter_flatMap, hs.distinct.flatMap_eq hmem]
      · simp
      · intro b' _ hne
        simp [hne]
    rw [tasksOf, h.pending, List.filter_append, List.map_append, hone, List.map_map]
    exact congrArg (_ ++ ·) (List.map_id _)
  · have hone : (s.bar.items.flatMap fun b' =>
        (s.reaction op b').events.map (b'.id, ·)).filter (·.1 == b.id) =
          (s.reaction op b).events.map (b.id, ·) := by
      rw [List.filter_flatMap, hs.distinct.flatMap_eq hmem]
      · simp
      · intro b' _ hne
        simp [hne]
    rw [eventsOf, h.events, List.filter_append, List.map_append, hone, List.map_map]
    exact congrArg (_ ++ ·) (List.map_id _)

/-- The alone item follows operations that the items carry out. -/
theorem Mirrors.step_of_reaching (h : s.Mirrors id l) (hs : s.Sound) {op : BarOp}
    (hop : op.IsSpread) (hg : op.glyphsAfter s.bar.catalog.glyphs = s.bar.catalog.glyphs)
    (ha : op.answersAfter s.host.answers = s.host.answers) :
    (s.step op).Mirrors id (l.run ((op.reaching l.item).toList.map .item)) := by
  obtain ⟨hitem, htasks, hevents⟩ :=
    Spread.of_item hs (hs.step op) (step_spread hs hop) h.item
  rw [reaction] at hitem htasks hevents
  cases hr : op.reaching l.item with
  | none =>
    rw [hr] at hitem htasks hevents
    exact
      { toShares := h.toShares.of_quiet hg ha rfl h.catalog rfl
        item := hitem
        pending := by
          change (s.step op).tasksOf id = l.pending.map (·.task)
          rw [htasks, ← h.pending]
          exact List.append_nil _
        events := by
          change (s.step op).eventsOf id = l.events
          rw [hevents, ← h.events]
          exact List.append_nil _ }
  | some o =>
    rw [hr] at hitem htasks hevents
    obtain ⟨hitem', htasks', hevents'⟩ := LoneItem.act_of_icons (h.toShares.icons hs) o
    exact
      { toShares :=
          h.toShares.of_quiet hg ha l.catalog.glyphs_snapshot h.catalog.snapshot rfl
        item := hitem.trans (congrArg some hitem'.symm)
        pending := by rw [htasks, h.pending]; exact htasks'.symm
        events := by rw [hevents, h.events]; exact hevents'.symm }

/-- Items are found by their ids wherever they stand. -/
theorem Mirrors.of_mem (h : s.Mirrors id l) (hs : s.Sound) {op : BarOp}
    (hmem : l.item ∈ (s.step op).bar.items) (hp : (s.step op).pending = s.pending)
    (he : (s.step op).events = s.events)
    (hg : op.glyphsAfter s.bar.catalog.glyphs = s.bar.catalog.glyphs)
    (ha : op.answersAfter s.host.answers = s.host.answers) :
    (s.step op).Mirrors id l where
  toShares := h.toShares.of_quiet hg ha rfl h.catalog rfl
  item := (hs.step op).distinct.find?_eq_some_iff.mpr
    ⟨hmem, (hs.distinct.find?_eq_some_iff.mp h.item).2⟩
  pending := by rw [tasksOf, hp]; exact h.pending
  events := by rw [eventsOf, he]; exact h.events

theorem Mirrors.push (h : s.Mirrors id l) (hs : s.Sound) (definition : ModuleDefinition) :
    (s.step (.push definition)).Mirrors id l := by
  have hmem := (hs.distinct.find?_eq_some_iff.mp h.item).1
  by_cases hd : definition.id ∈ s.bar.ids
  · rwa [step_push_of_mem hd]
  · have hstep := step_push_of_not_mem hd
    refine h.of_mem hs ?_ (by rw [hstep]) (by rw [hstep]) rfl rfl
    rw [hstep]
    exact List.mem_append_left _ hmem

theorem Mirrors.reorder (h : s.Mirrors id l) (hs : s.Sound) (ids : List String) :
    (s.step (.reorder ids)).Mirrors id l := by
  have hmem := (hs.distinct.find?_eq_some_iff.mp h.item).1
  have hperm := Toolbar.reorderItems_perm ids s.bar.items
  exact h.of_mem hs (hperm.mem_iff.mpr hmem) rfl rfl rfl rfl

/-- What running a task does to what is seen of the item that left it. -/
theorem runTask_of_owner (hs : s.Sound) {n : Nat} {p : LeftTask} (hn : s.pending[n]? = some p)
    {b : BarItem} (hb : s.bar.get? p.owner = some b) :
    (s.runTask n).bar.get? p.owner = some (b.runTask s.host p.task).1 ∧
    (s.tasksOf p.owner)[(s.pending.take n).countP (·.owner == p.owner)]? = some p.task ∧
    (s.runTask n).tasksOf p.owner =
      (s.tasksOf p.owner).eraseIdx ((s.pending.take n).countP (·.owner == p.owner)) ∧
    (s.runTask n).eventsOf p.owner = s.eventsOf p.owner ++ [.called p.task.hostCall] := by
  obtain ⟨hmem, hid⟩ := hs.distinct.find?_eq_some_iff.mp hb
  have hrun := runTask_of_some hn (hs.owned p (List.mem_of_getElem? hn))
  obtain ⟨hget, herase⟩ := filter_eraseIdx_of_pos (f := fun q => q.owner == p.owner) hn (by simp)
  refine ⟨?_, ?_, ?_, ?_⟩
  · have hid' := (b.runTask_id s.host p.task).trans hid
    refine (hs.runTask n).distinct.find?_eq_some_iff.mpr ⟨?_, hid'⟩
    rw [hrun]
    exact List.mem_map.mpr ⟨b, hmem, if_pos hid⟩
  · rw [tasksOf, List.getElem?_map, hget]
    rfl
  · rw [tasksOf, hrun, tasksOf, herase, List.eraseIdx_map]
  · rw [eventsOf, hrun, eventsOf, List.filter_append, List.map_append]
    simp

/-- A task of another item is not seen. -/
theorem runTask_of_other (hs : s.Sound) {n : Nat} {p : LeftTask} (hn : s.pending[n]? = some p)
    (hne : p.owner ≠ id) {b : BarItem} (hb : s.bar.get? id = some b) :
    (s.runTask n).bar.get? id = some b ∧ (s.runTask n).tasksOf id = s.tasksOf id ∧
      (s.runTask n).eventsOf id = s.eventsOf id := by
  obtain ⟨hmem, hid⟩ := hs.distinct.find?_eq_some_iff.mp hb
  have hrun := runTask_of_some hn (hs.owned p (List.mem_of_getElem? hn))
  refine ⟨?_, ?_, ?_⟩
  · refine (hs.runTask n).distinct.find?_eq_some_iff.mpr ⟨?_, hid⟩
    rw [hrun]
    exact List.mem_map.mpr ⟨b, hmem, if_neg fun he => hne (he.symm.trans hid)⟩
  · rw [tasksOf, hrun, tasksOf, filter_eraseIdx_of_neg hn (by simpa using hne)]
  · rw [eventsOf, hrun, eventsOf, List.filter_append, List.map_append]
    simp [hne]

/-- A task of the item runs alone as it runs on the toolbar, and other tasks do not touch it. -/
theorem Mirrors.runTask (h : s.Mirrors id l) (hs : s.Sound) (n : Nat) :
    (s.runTask n).Mirrors id (l.run (s.aloneOps id (.runTask n))) := by
  cases hn : s.pending[n]? with
  | none =>
    rw [runTask_of_none hn, aloneOps, hn]
    exact h
  | some p =>
    by_cases ho : p.owner = id
    · subst ho
      obtain ⟨hitem, hget, htasks, hevents⟩ := runTask_of_owner hs hn h.item
      rw [h.pending, List.getElem?_map] at hget
      obtain ⟨q, hq, hqp⟩ := Option.map_eq_some_iff.mp hget
      have halone : s.aloneOps p.owner (.runTask n) =
          [.runTask ((s.pending.take n).countP (·.owner == p.owner))] := by
        simp [aloneOps, hn]
      have hfst := l.item.runTask_fst_congr h.answers p.task
      rw [halone]
      change (s.runTask n).Mirrors p.owner (l.runTask _)
      rw [LoneItem.runTask_of_some hq, hqp]
      exact
        { toShares := h.toShares.runTask n rfl rfl
          item := hitem.trans (congrArg some hfst)
          pending := by rw [htasks, h.pending]; exact List.eraseIdx_map _ _ _
          events := by rw [hevents, h.events] }
    · obtain ⟨hitem, htasks, hevents⟩ := runTask_of_other hs hn ho h.item
      have halone : s.aloneOps id (.runTask n) = [] := by
        simp [aloneOps, hn, ho]
      rw [halone]
      exact
        { toShares := h.toShares.runTask n rfl rfl
          item := hitem
          pending := htasks.trans h.pending
          events := hevents.trans h.events }

theorem Mirrors.step (h : s.Mirrors id l) (hs : s.Sound) (op : BarOp) :
    (s.step op).Mirrors id (l.run (s.aloneOps id op)) := by
  have hgeneric (op : BarOp) : ((s.bar.get? id).bind op.reaching).toList.map LoneOp.item =
      (op.reaching l.item).toList.map .item := by
    rw [h.item]
    rfl
  cases op with
  | push definition =>
    rw [aloneOps, hgeneric]
    · exact h.push hs definition
    all_goals simp
  | reorder ids =>
    rw [aloneOps, hgeneric]
    · exact h.reorder hs ids
    all_goals simp
  | registerIcon name glyph =>
    obtain ⟨hitem, htasks, hevents⟩ := Spread.of_item hs (hs.step (.registerIcon name glyph))
      (step_spread hs trivial) h.item
    exact
      { toShares := h.toShares.registerIcon name glyph
        item := hitem
        pending := htasks.trans ((List.append_nil _).trans h.pending)
        events := hevents.trans ((List.append_nil _).trans h.events) }
  | answerWith brightness script =>
    exact
      { glyphs := h.glyphs
        catalog := h.catalog
        answers := rfl
        item := h.item
        pending := h.pending
        events := h.events }
  | runTask n => exact h.runTask hs n
  | _ =>
    rw [aloneOps, hgeneric]
    · exact h.step_of_reaching hs trivial rfl rfl
    all_goals simp

theorem Mirrors.run (h : s.Mirrors id l) (hs : s.Sound) (ops : List BarOp) :
    (s.run ops).Mirrors id (l.run (s.aloneRun id ops)) := by
  induction ops generalizing s l with
  | nil => exact h
  | cons op ops ih =>
    rw [run_cons, aloneRun, LoneItem.run_append]
    exact ih (h.step hs op) (hs.step op)

theorem aloneRun_append (s : Session) (id : String) (ops ops' : List BarOp) :
    s.aloneRun id (ops ++ ops') = s.aloneRun id ops ++ (s.run ops).aloneRun id ops' := by
  induction ops generalizing s with
  | nil => rfl
  | cons op ops ih => rw [List.cons_append, aloneRun, ih, aloneRun, run_cons, List.append_assoc]

/-- An alone item that nothing has reached, and that is not yet on the toolbar. -/
structure Awaits (s : Session) (id : String) (l : LoneItem) : Prop extends Shares s l where
  absent : id ∉ s.bar.ids
  pending : l.pending = []
  events : l.events = []

theorem get?_of_absent (h : id ∉ s.bar.ids) : s.bar.get? id = none := by
  refine List.find?_eq_none.mpr fun b hb hid => h ?_
  rw [← (by simpa using hid : b.id = id)]
  exact List.mem_map_of_mem hb

/-- What reaches an item that is not there. -/
theorem aloneOps_of_absent (hs : s.Sound) (h : id ∉ s.bar.ids) (op : BarOp) :
    s.aloneOps id op =
      match op with
      | .registerIcon name glyph => [.registerIcon name glyph]
      | .answerWith brightness script => [.answerWith brightness script]
      | _ => [] := by
  have hget := get?_of_absent h
  cases op with
  | runTask n =>
    rw [aloneOps]
    cases hn : s.pending[n]? with
    | none => rfl
    | some p =>
      have howner := hs.owners p (List.mem_of_getElem? hn)
      have hne : p.owner ≠ id := fun he => h (he ▸ howner)
      simp [hne]
  | registerIcon name glyph => rfl
  | answerWith brightness script => rfl
  | _ => simp [aloneOps, hget]

theorem Awaits.step (h : s.Awaits id l) (hs : s.Sound) {op : BarOp}
    (habsent : id ∉ (s.step op).bar.ids) :
    (s.step op).Awaits id (l.run (s.aloneOps id op)) ∧
      (l.run (s.aloneOps id op)).item = l.item := by
  rw [aloneOps_of_absent hs h.absent]
  cases op with
  | registerIcon name glyph =>
    exact ⟨⟨h.toShares.registerIcon name glyph, habsent, h.pending, h.events⟩, rfl⟩
  | answerWith brightness script =>
    exact ⟨⟨⟨h.glyphs, h.catalog, rfl⟩, habsent, h.pending, h.events⟩, rfl⟩
  | _ =>
    exact ⟨⟨h.toShares.of_quiet rfl rfl rfl h.catalog rfl, habsent, h.pending, h.events⟩, rfl⟩

theorem Awaits.run (h : s.Awaits id l) (hs : s.Sound) {ops : List BarOp}
    (habsent : id ∉ (s.run ops).bar.ids) :
    (s.run ops).Awaits id (l.run (s.aloneRun id ops)) ∧
      (l.run (s.aloneRun id ops)).item = l.item := by
  induction ops generalizing s l with
  | nil => exact ⟨h, rfl⟩
  | cons op ops ih =>
    have hstep : id ∉ (s.step op).bar.ids := fun hid => habsent (mem_ids_run (hs.step op) hid ops)
    obtain ⟨hnext, hitem⟩ := h.step hs hstep
    obtain ⟨hrun, hitem'⟩ := ih hnext (hs.step op) habsent
    rw [aloneRun, LoneItem.run_append]
    exact ⟨hrun, hitem'.trans hitem⟩

/-- A new item stands on the toolbar as it does alone. -/
theorem Awaits.push {definition : ModuleDefinition} (h : s.Awaits definition.id l) (hs : s.Sound)
    (hitem : l.item = (BarItem.create definition s.bar.context
      (.empty s.bar.context.limits.maxDepth)).1) :
    (s.step (.push definition)).Mirrors definition.id l := by
  have hnew : (BarItem.create definition s.bar.context s.bar.cache).1 = l.item := by
    rw [hitem]
    exact BarItem.create_fst_congr definition s.bar.context hs.cache
      (TemplateCache.faithful_empty _) hs.depth
  have hpush := step_push_of_not_mem h.absent
  refine
    { toShares := h.toShares.of_quiet rfl rfl rfl h.catalog rfl
      item := ?_
      pending := ?_
      events := ?_ }
  · refine (hs.push definition).distinct.find?_eq_some_iff.mpr ⟨?_, ?_⟩
    · rw [hpush, ← hnew]
      exact List.mem_append_right _ List.mem_cons_self
    · rw [hitem, BarItem.create_id]
  · have hnone : s.pending.filter (·.owner == definition.id) = [] := by
      refine List.filter_eq_nil_iff.mpr fun p hp he => h.absent ?_
      rw [← (by simpa using he : p.owner = definition.id)]
      exact hs.owners p hp
    rw [tasksOf, hpush, h.pending]
    exact congrArg (List.map _) hnone
  · have hnone : s.events.filter (·.1 == definition.id) = [] := by
      refine List.filter_eq_nil_iff.mpr fun e he hid => h.absent ?_
      rw [← (by simpa using hid : e.1 = definition.id)]
      exact hs.seen e he
    rw [eventsOf, hpush, h.events]
    exact congrArg (List.map _) hnone

/-- The alone item is as the one on the toolbar from the moment on at which that one comes in. -/
theorem Awaits.run_push {definition : ModuleDefinition} (h : s.Awaits definition.id l)
    (hs : s.Sound) {before : List BarOp} (habsent : definition.id ∉ (s.run before).bar.ids)
    (hitem : l.item = (BarItem.create definition (s.run before).bar.context
      (.empty (s.run before).bar.context.limits.maxDepth)).1) (after : List BarOp) :
    (s.run (before ++ .push definition :: after)).Mirrors definition.id
      (l.run (s.aloneRun definition.id (before ++ .push definition :: after))) := by
  obtain ⟨hbefore, hkept⟩ := h.run hs habsent
  have hmirrors := hbefore.push (hs.run before) (hkept.trans hitem)
  -- Coming in reaches the item with nothing, so its run alone splits at that point as well.
  have hnone : (s.run before).aloneOps definition.id (.push definition) = [] :=
    aloneOps_of_absent (hs.run before) habsent _
  rw [run_append, run_cons, aloneRun_append, aloneRun, hnone, List.nil_append, LoneItem.run_append]
  exact hmirrors.run ((hs.run before).step _) after

/-- An item behaves on a toolbar, with whatever other items, as it does alone: it is the same item
after every run, has left the same tasks, and the same views, keys, tasks and host calls of it were
seen. -/
theorem item_of_run (context : ItemContext) (host : Host) (before after : List BarOp)
    (definition : ModuleDefinition)
    (hnew : definition.id ∉ ((start context host).run before).bar.ids) :
    let contextThen := ((start context host).run before).bar.context
    let item := (BarItem.create definition contextThen (.empty contextThen.limits.maxDepth)).1
    let ops := before ++ .push definition :: after
    let alone := (LoneItem.start item .empty host).run
      ((start context host).aloneRun definition.id ops)
    ((start context host).run ops).bar.get? definition.id = some alone.item ∧
    ((start context host).run ops).tasksOf definition.id = alone.pending.map (·.task) ∧
    ((start context host).run ops).eventsOf definition.id = alone.events := by
  intro contextThen item ops alone
  have hs := sound_start context host
  have hstart : (start context host).Awaits definition.id (LoneItem.start item .empty host) :=
    { glyphs := rfl
      catalog := .empty
      answers := rfl
      absent := List.not_mem_nil
      pending := rfl
      events := rfl }
  have hmirrors := hstart.run_push hs hnew rfl after
  exact ⟨hmirrors.item, hmirrors.pending, hmirrors.events⟩

/-- An item whose broken template the cache knows from another item. -/
def lateItem : ModuleDefinition :=
  { id := "b", kind := .settings, template := "1 +", onClick := some "invoke('log_out')" }

def earlyOps : List BarOp :=
  [.registerIcon "Bell" "!", .push { id := "a", template := "1 +" }, .mountAll []]

def lateOps : List BarOp :=
  [.reorder ["b"], .mountAll [], .click "a", .click "b", .apply .refresh, .runTask 1]

/-- The late item is mounted and clicked, which leaves three tasks, of which the second one runs. -/
theorem item_of_run_lateItem :
    let bar := (start ⟨[], {}, none, true⟩ ⟨none, none, []⟩).run
      (earlyOps ++ .push lateItem :: lateOps)
    lateItem.id ∉ ((start ⟨[], {}, none, true⟩ ⟨none, none, []⟩).run earlyOps).bar.ids ∧
    ∃ alone : LoneItem, bar.bar.get? lateItem.id = some alone.item ∧
      bar.tasksOf lateItem.id = alone.pending.map (·.task) ∧
      bar.eventsOf lateItem.id = alone.events ∧ alone.pending.length = 2 ∧
      alone.events.length = 4 := by
  have hnew : lateItem.id ∉
      ((start ⟨[], {}, none, true⟩ ⟨none, none, []⟩).run earlyOps).bar.ids := by decide +kernel
  obtain ⟨hitem, htasks, hevents⟩ :=
    item_of_run ⟨[], {}, none, true⟩ ⟨none, none, []⟩ earlyOps lateOps lateItem hnew
  exact ⟨hnew, _, hitem, htasks, hevents, by decide +kernel, by decide +kernel⟩

end Session
end TemplateBar
