import TemplateBar.Proofs.Toolbar.Items
import TemplateBar.Proofs.Toolbar.Lone
import TemplateBar.Proofs.Icon.Catalog

/-!
# Sessions of a toolbar

A toolbar with its host and the tasks that its items have left, under all that can be done to them.
The id of the item that a task came from and what has shown of each item are kept beside. An
operation on the toolbar is, seen from each of its items, at most one operation on that item, which
`BarOp.reaching` names.
-/
namespace TemplateBar

/-- A task and the id of the item that left it. -/
structure LeftTask where
  owner : String
  task : HostTask

/-- Mounting leaves queries only, and these name their item. -/
def LeftTask.ofMount : HostTask → LeftTask
  | .call c => ⟨"", .call c⟩
  | .queryBrightness id ticket => ⟨id, .queryBrightness id ticket⟩

structure Session where
  bar : Toolbar
  host : Host
  pending : List LeftTask
  events : List (String × ItemEvent)

inductive BarOp where
  | push (definition : ModuleDefinition)
  | reorder (ids : List String)
  | withEnvironment (environment : Dict String)
  | mountAll (surroundings : Dict String)
  | unmountAll
  | apply (trigger : RenderTrigger)
  | click (id : String)
  | key (id name : String)
  /-- Something done to the item with the given id alone. -/
  | item (id : String) (op : BarItemOp)
  | registerIcon (name glyph : String)
  /-- From now on the host answers otherwise. -/
  | answerWith (brightness : Option Brightness) (script : Option HostScript)
  /-- Run the pending task in the given place of the queue. -/
  | runTask (n : Nat)

/-- What an operation on the toolbar is to one of its items. -/
def BarOp.reaching (op : BarOp) (b : BarItem) : Option BarItemOp :=
  match op with
  | .withEnvironment environment => some (.setEnvironment environment)
  | .mountAll surroundings => if b.state = .unmounted then some (.mount surroundings) else none
  | .unmountAll => if b.state = .unmounted then none else some .unmount
  | .apply trigger => some (.apply trigger)
  | .click id => if b.id = id then some .click else none
  | .key id name => if b.id = id then some (.key name) else none
  | .item id op => if b.id = id then some op else none
  | .push _ | .reorder _ | .registerIcon _ _ | .answerWith _ _ | .runTask _ => none

/-- The operation is carried out by the items that are there. -/
def BarOp.IsSpread : BarOp → Prop
  | .push _ | .reorder _ | .runTask _ => False
  | _ => True

/-- A query names the item that left it. -/
def LeftTask.Owned (p : LeftTask) : Prop :=
  ∀ id ticket, p.task = .queryBrightness id ticket → id = p.owner

def BarItem.react (b : BarItem) (icons : IconView) : Option BarItemOp → Reaction
  | none => { item := b }
  | some op => b.act icons op

namespace Session

def start (context : ItemContext) (host : Host) : Session :=
  ⟨.empty context .empty, host, [], []⟩

/-- The session after the toolbar showed views and its items left tasks. -/
def record (s : Session) (bar : Toolbar) (views : List ItemView) (tasks : List LeftTask) :
    Session :=
  { s with
    bar
    pending := s.pending ++ tasks
    events := s.events ++ (views.map (fun v => (v.id, .shown v)) ++
      tasks.map fun p => (p.owner, .left p.task)) }

def actOn (s : Session) (id : String) (op : BarItemOp) : Session :=
  match s.bar.get? id with
  | none => s
  | some b =>
    let r := b.act s.bar.catalog.snapshot.1 op
    { s with
      bar := { s.bar.modify id fun _ => r.item with catalog := s.bar.catalog.snapshot.2 }
      pending := s.pending ++ r.tasks.map (⟨id, ·⟩)
      events := s.events ++ r.events.map (id, ·) }

def runTask (s : Session) (n : Nat) : Session :=
  match s.pending[n]? with
  | none => s
  | some p =>
    let (bar, host) := s.bar.runTask s.host p.task
    { bar
      host
      pending := s.pending.eraseIdx n
      events := s.events ++ (host.callsSince s.host).map fun c => (p.owner, .called c) }

def step (s : Session) : BarOp → Session
  | .push definition => { s with bar := (s.bar.push definition).toOption.getD s.bar }
  | .reorder ids => { s with bar := s.bar.reorder ids }
  | .withEnvironment environment => { s with bar := s.bar.withEnvironment environment }
  | .mountAll surroundings =>
    let (bar, _, tasks) := s.bar.mountAll surroundings
    s.record bar [] (tasks.map .ofMount)
  | .unmountAll => { s with bar := s.bar.unmountAll.1 }
  | .apply trigger => s.record (s.bar.apply trigger).1 (s.bar.apply trigger).2 []
  | .click id => s.record (s.bar.click id).1 [] (((s.bar.click id).2.getD []).map (⟨id, ·⟩))
  | .key id name =>
    { s with events := s.events ++ if s.bar.takesKey id then [(id, .tookKey name)] else [] }
  | .item id op => s.actOn id op
  | .registerIcon name glyph =>
    { s with bar := (s.bar.registerIcon name glyph).toOption.getD s.bar }
  | .answerWith brightness script => { s with host := { s.host with brightness, script } }
  | .runTask n => s.runTask n

def run (s : Session) (ops : List BarOp) : Session := ops.foldl step s

@[simp] theorem run_nil (s : Session) : s.run [] = s := rfl

theorem run_cons (s : Session) (op : BarOp) (ops : List BarOp) :
    s.run (op :: ops) = (s.step op).run ops := rfl

theorem run_append (s : Session) (ops ops' : List BarOp) :
    s.run (ops ++ ops') = (s.run ops).run ops' := List.foldl_append

/-- The icons that a mount would capture now. -/
def icons (s : Session) : IconView := s.bar.catalog.snapshot.1

/-- What an operation makes an item do. -/
def reaction (s : Session) (op : BarOp) (b : BarItem) : Reaction := b.react s.icons (op.reaching b)

/-- The invariant of sessions. -/
structure Sound (s : Session) : Prop where
  distinct : BarItem.Distinct s.bar.items
  coherent : ∀ b ∈ s.bar.items, b.item.Coherent
  catalog : s.bar.catalog.Reachable
  cache : s.bar.cache.Faithful
  depth : s.bar.cache.maxDepth = s.bar.context.limits.maxDepth
  owned : ∀ p ∈ s.pending, p.Owned
  owners : ∀ p ∈ s.pending, p.owner ∈ s.bar.ids
  seen : ∀ e ∈ s.events, e.1 ∈ s.bar.ids

/-- Every item of a session has reacted in its own way. -/
structure Spread (s s' : Session) (react : BarItem → Reaction) : Prop where
  items : s'.bar.items = s.bar.items.map fun b => (react b).item
  pending : s'.pending = s.pending ++ s.bar.items.flatMap fun b => (react b).tasks.map (⟨b.id, ·⟩)
  events : s'.events = s.events ++ s.bar.items.flatMap fun b => (react b).events.map (b.id, ·)

end Session

theorem Item.view_id {i : Item} {trigger : RenderTrigger} {v : ItemView}
    (h : (i.apply trigger).2 = some v) : v.id = i.id := by
  simp only [apply, render] at h
  split at h
  · obtain ⟨icons, -, hv⟩ := Option.bind_eq_some_iff.mp h
    simp only [view] at hv
    split at hv
    · cases hv
    · rw [← Option.some.inj hv]
      cases trigger <;> rfl
  · cases h

namespace BarItem

variable {b : BarItem} {icons : IconView}

@[simp] theorem react_none (b : BarItem) (icons : IconView) :
    b.react icons none = { item := b } := rfl

@[simp] theorem react_id (b : BarItem) (icons : IconView) (op : Option BarItemOp) :
    (b.react icons op).item.id = b.id := by
  cases op with
  | none => rfl
  | some op => exact b.act_id icons op

theorem coherent_react (h : b.item.Coherent) (icons : IconView) (op : Option BarItemOp) :
    (b.react icons op).item.item.Coherent := by
  cases op with
  | none => exact h
  | some op => exact coherent_act h icons op

theorem owned_react {op : Option BarItemOp} {task : HostTask}
    (h : task ∈ (b.react icons op).tasks) : LeftTask.Owned ⟨b.id, task⟩ := by
  cases op with
  | none => cases h
  | some op =>
    intro id ticket ht
    have hleft := leftAt_act h
    rw [show task = .queryBrightness id ticket from ht] at hleft
    exact hleft.1

theorem view_id {trigger : RenderTrigger} {v : ItemView} (h : (b.apply trigger).2 = some v) :
    v.id = b.id := by
  cases b with
  | generic i => exact Item.view_id h
  | settings s =>
    obtain ⟨w, hw, rfl⟩ := Option.map_eq_some_iff.mp h
    exact Item.view_id (i := s.item.setActive s.isOpen) (v := w) hw

theorem isQuery_mount {surroundings : Dict String} {task : HostTask}
    (h : task ∈ (b.act icons (.mount surroundings)).tasks) : task.IsQuery := by
  cases b with
  | generic i => cases h
  | settings s =>
    change task ∈ (s.mount icons surroundings).2.2 at h
    unfold SettingsItem.mount at h
    split at h
    · cases h
    · exact SettingsItem.isQuery_refreshBrightness h

theorem ofMount_mount {surroundings : Dict String} {task : HostTask}
    (h : task ∈ (b.act icons (.mount surroundings)).tasks) :
    LeftTask.ofMount task = ⟨b.id, task⟩ := by
  cases task with
  | call c => exact (isQuery_mount h).elim
  | queryBrightness id ticket =>
    rw [← (leftAt_act h).1]
    rfl

end BarItem

namespace Session

variable {s s' : Session} {react react' : BarItem → Reaction}

theorem Spread.congr (h : Spread s s' react) (hr : ∀ b ∈ s.bar.items, react b = react' b) :
    Spread s s' react' where
  items := h.items.trans (List.map_congr_left fun b hb => by rw [hr b hb])
  pending := by
    rw [h.pending, List.flatMap_congr fun b hb => by rw [hr b hb]]
  events := by
    rw [h.events, List.flatMap_congr fun b hb => by rw [hr b hb]]

theorem Spread.transfer {s'' : Session} (h : Spread s s' react)
    (hi : s''.bar.items = s'.bar.items) (hp : s''.pending = s'.pending)
    (he : s''.events = s'.events) : Spread s s'' react :=
  ⟨hi.trans h.items, hp.trans h.pending, he.trans h.events⟩

theorem Spread.of_quiet (f : BarItem → BarItem) (hi : s'.bar.items = s.bar.items.map f)
    (hp : s'.pending = s.pending) (he : s'.events = s.events) :
    Spread s s' fun b => { item := f b } where
  items := hi
  pending := by simp [hp]
  events := by simp [he, Reaction.events]

/-- An operation on the item with an id reaches that item and no other. -/
theorem spread_actOn (h : s.Sound) (id : String) (op : BarItemOp) :
    Spread s (s.actOn id op) fun b => b.react s.icons (if b.id = id then some op else none) := by
  cases hb : s.bar.get? id with
  | none =>
    have hne : ∀ b ∈ s.bar.items, ¬b.id = id := by
      intro b hmem hid
      exact List.find?_eq_none.mp hb b hmem (by simp [hid])
    have hs : s.actOn id op = s := by simp only [actOn, hb]
    have hq : Spread s s fun b => { item := b } :=
      Spread.of_quiet (fun b => b) (List.map_id' _).symm rfl rfl
    rw [hs]
    exact hq.congr fun b hmem => by simp [hne b hmem]
  | some b =>
    obtain ⟨hmem, rfl⟩ := h.distinct.find?_eq_some_iff.mp hb
    -- Of what the items contribute, only the part of the one with the id is not empty.
    have hother : ∀ b' ∈ s.bar.items, b'.id ≠ b.id →
        b'.react s.icons (if b'.id = b.id then some op else none) = { item := b' } := by
      intro b' _ hne
      simp [hne]
    have hitems : (s.actOn b.id op).bar.items =
        (s.bar.modify b.id fun b' => (b'.act s.icons op).item).items := by
      rw [← Toolbar.modify_congr h.distinct hb]
      simp only [actOn, hb]
      rfl
    refine ⟨?_, ?_, ?_⟩
    · rw [hitems]
      refine List.map_congr_left fun b' _ => ?_
      split <;> rfl
    · rw [h.distinct.flatMap_eq hmem fun b' hb' hne => by rw [hother b' hb' hne]; rfl]
      simp only [actOn, hb, if_true]
      rfl
    · rw [h.distinct.flatMap_eq hmem fun b' hb' hne => by rw [hother b' hb' hne]; rfl]
      simp only [actOn, hb, if_true]
      rfl

theorem spread_mountAll (s : Session) (surroundings : Dict String) :
    Spread s (s.step (.mountAll surroundings)) (s.reaction (.mountAll surroundings)) := by
  have hm := Toolbar.mountItems_eq s.icons surroundings s.bar.items
  have hr (b : BarItem) : s.reaction (.mountAll surroundings) b =
      if b.state = .unmounted then b.act s.icons (.mount surroundings) else { item := b } := by
    change b.react s.icons (if b.state = .unmounted then some (.mount surroundings) else none) = _
    split <;> rfl
  have ht : (Toolbar.mountItems s.icons surroundings s.bar.items).2.2.map LeftTask.ofMount =
      s.bar.items.flatMap fun b =>
        (s.reaction (.mountAll surroundings) b).tasks.map (⟨b.id, ·⟩) := by
    rw [hm, List.map_flatMap]
    refine List.flatMap_congr fun b _ => ?_
    rw [hr]
    split
    · exact List.map_congr_left fun task htask => BarItem.ofMount_mount htask
    · rfl
  refine ⟨?_, ?_, ?_⟩
  · change (Toolbar.mountItems s.icons surroundings s.bar.items).1 = _
    rw [hm]
    refine List.map_congr_left fun b _ => ?_
    rw [hr]
    split <;> rfl
  · exact congrArg (s.pending ++ ·) ht
  · change s.events ++ ((Toolbar.mountItems s.icons surroundings s.bar.items).2.2.map
      LeftTask.ofMount).map (fun p => (p.owner, ItemEvent.left p.task)) = _
    rw [ht, List.map_flatMap]
    congr 1
    refine List.flatMap_congr fun b _ => ?_
    rw [hr, Reaction.events]
    split
    · simp [BarItem.act]
    · rfl

theorem spread_unmountAll (h : s.Sound) :
    Spread s (s.step .unmountAll) (s.reaction .unmountAll) := by
  have hu := Toolbar.unmountItems_eq h.coherent
  have hq : Spread s (s.step .unmountAll)
      fun b => { item := if b.state = .unmounted then b else b.unmount.1 } :=
    Spread.of_quiet _ (congrArg (·.1) hu) rfl rfl
  refine hq.congr fun b hb => ?_
  change _ = b.react s.icons (if b.state = .unmounted then none else some .unmount)
  by_cases hs : b.state = .unmounted
  · simp [hs]
  · have hok := BarItem.unmount_result_of_active ((h.coherent b hb).active_of_ne hs)
    simp only [hs, if_false, BarItem.react, BarItem.act, hok]

theorem spread_apply (s : Session) (trigger : RenderTrigger) :
    Spread s (s.step (.apply trigger)) (s.reaction (.apply trigger)) := by
  refine ⟨?_, ?_, ?_⟩
  · exact List.map_map
  · have ht : (s.bar.items.flatMap fun b =>
        (s.reaction (.apply trigger) b).tasks.map (LeftTask.mk b.id)) = [] :=
      List.flatMap_eq_nil_iff.mpr fun b _ => rfl
    rw [ht]
    rfl
  · change s.events ++ (((s.bar.items.map (BarItem.apply · trigger)).filterMap (·.2)).map
      (fun v => (v.id, ItemEvent.shown v)) ++ []) = _
    congr 1
    rw [List.append_nil, List.filterMap_map, List.filterMap_eq_flatMap_toList, List.map_flatMap]
    refine List.flatMap_congr fun b _ => ?_
    change (b.apply trigger).2.toList.map _ =
      ((b.apply trigger).2.toList.map ItemEvent.shown ++ [] ++ []).map (b.id, ·)
    cases hv : (b.apply trigger).2 with
    | none => rfl
    | some v => simp [BarItem.view_id hv]

/-- A click of the toolbar is one of the item with that id, and so is a key. -/
theorem spread_click (h : s.Sound) (id : String) :
    Spread s (s.step (.click id)) (s.reaction (.click id)) := by
  refine (spread_actOn h id .click).transfer ?_ ?_ ?_ <;> cases hb : s.bar.get? id with
  | none => simp [step, record, Toolbar.click, actOn, hb]
  | some b =>
    simp [step, record, Toolbar.click, actOn, hb, BarItem.act, Reaction.events, Toolbar.modify]

theorem spread_key (h : s.Sound) (id name : String) :
    Spread s (s.step (.key id name)) (s.reaction (.key id name)) := by
  cases hb : s.bar.get? id with
  | none =>
    refine (spread_actOn h id (.key name)).transfer ?_ ?_ ?_ <;>
      simp [step, Toolbar.takesKey, actOn, hb]
  | some b =>
    have hmodify : (s.bar.modify id fun _ => b) = s.bar.modify id fun b' => b' :=
      Toolbar.modify_congr h.distinct hb (f := fun b' => b')
    have hsame : (s.bar.modify id fun _ => b).items = s.bar.items := by
      rw [hmodify]
      simp [Toolbar.modify]
    refine (spread_actOn h id (.key name)).transfer ?_ ?_ ?_
    · simpa [step, actOn, hb, BarItem.act] using hsame.symm
    · simp [step, actOn, hb, BarItem.act]
    · cases hk : b.item.hasKeyHandler <;>
        simp [step, Toolbar.takesKey, actOn, hb, BarItem.act, Reaction.events, hk]

/-- An operation that the items carry out is, for each item, the operation that reaches it. -/
theorem step_spread (h : s.Sound) {op : BarOp} (hop : op.IsSpread) :
    Spread s (s.step op) (s.reaction op) := by
  cases op with
  | push definition => exact hop.elim
  | reorder ids => exact hop.elim
  | withEnvironment environment =>
    exact Spread.of_quiet (BarItem.mapItem (Item.setEnvironment · environment)) rfl rfl rfl
  | mountAll surroundings => exact s.spread_mountAll surroundings
  | unmountAll => exact spread_unmountAll h
  | apply trigger => exact s.spread_apply trigger
  | click id => exact spread_click h id
  | key id name => exact spread_key h id name
  | item id op => exact spread_actOn h id op
  | registerIcon name glyph =>
    refine Spread.of_quiet (fun b => b) ?_ rfl rfl
    rw [List.map_id']
    simp only [step, Toolbar.registerIcon]
    cases s.bar.catalog.register name glyph <;> rfl
  | answerWith brightness script => exact Spread.of_quiet (fun b => b) (by simp [step]) rfl rfl
  | runTask n => exact hop.elim

end Session

end TemplateBar
