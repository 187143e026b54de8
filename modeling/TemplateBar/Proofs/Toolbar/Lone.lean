import TemplateBar.Proofs.Toolbar.Operation

/-!
# An item by itself

An item with an icon catalog and a host of its own and the tasks that it has left. Operations,
registrations and changes of what the host answers come in any order, and any pending task may run
at any point between them.
-/
namespace TemplateBar

/-- What shows of an item on the outside. -/
inductive ItemEvent where
  | shown (view : ItemView)
  | tookKey (name : String)
  | left (task : HostTask)
  | called (call : HostCall)

def Reaction.events (r : Reaction) : List ItemEvent :=
  r.view.toList.map .shown ++ r.key.toList.map .tookKey ++ r.tasks.map .left

def HostTask.IsQuery : HostTask → Prop
  | .call _ => False
  | .queryBrightness _ _ => True

/-- The call that the host sees when a task runs. -/
def HostTask.hostCall : HostTask → HostCall
  | .call c => c
  | .queryBrightness _ _ => Host.brightnessQuery

/-- The brightness that the host reports now, if it answers and the answer is one. -/
def Host.reported? (h : Host) : Option Brightness :=
  match h.answer .getMainMonitorBrightness with
  | .ok j => Brightness.ofJson? j
  | .error _ => none

/-- The calls that a host has seen beyond those that another one had. -/
def Host.callsSince (h before : Host) : List HostCall := h.calls.drop before.calls.length

/-- An item of either kind as it is made, before any operation. -/
def BarItem.fresh (kind : ModuleKind) (definition : ModuleDefinition) (context : ItemContext)
    (cache : TemplateCache) (clicks keys : Bool) : BarItem :=
  match kind with
  | .generic => generic (.fresh definition context cache clicks keys)
  | .settings => settings (.create (.fresh definition context cache clicks keys))

/-- Run a task of an item. -/
def BarItem.runTask (b : BarItem) (host : Host) : HostTask → BarItem × Host
  | .call c => (b, (host.invoke c).2)
  | .queryBrightness _ ticket => (b.receive ticket host.fetchBrightness.1, host.fetchBrightness.2)

/-- A task and the mount in which it was left, counted from one. -/
structure PendingTask where
  task : HostTask
  mount : Nat

structure LoneItem where
  item : BarItem
  catalog : IconCatalog
  host : Host
  pending : List PendingTask
  /-- How many mounts succeeded so far. -/
  mounts : Nat
  events : List ItemEvent

inductive LoneOp where
  | item (op : BarItemOp)
  | registerIcon (name glyph : String)
  /-- From now on the host answers otherwise. -/
  | answerWith (brightness : Option Brightness) (script : Option HostScript)
  /-- Run the pending task in the given place of the queue. -/
  | runTask (n : Nat)

namespace LoneItem

def start (item : BarItem) (catalog : IconCatalog) (host : Host) : LoneItem :=
  ⟨item, catalog, host, [], 0, []⟩

def mountsAfter (l : LoneItem) (op : BarItemOp) : Nat :=
  l.mounts + if l.item.begins l.catalog.snapshot.1 op then 1 else 0

def act (l : LoneItem) (op : BarItemOp) : LoneItem :=
  let r := l.item.act l.catalog.snapshot.1 op
  { l with
    item := r.item
    catalog := l.catalog.snapshot.2
    pending := l.pending ++ r.tasks.map (⟨·, l.mountsAfter op⟩)
    mounts := l.mountsAfter op
    events := l.events ++ r.events }

def runTask (l : LoneItem) (n : Nat) : LoneItem :=
  match l.pending[n]? with
  | none => l
  | some p =>
    let (item, host) := l.item.runTask l.host p.task
    { l with
      item
      host
      pending := l.pending.eraseIdx n
      events := l.events ++ (host.callsSince l.host).map .called }

def step (l : LoneItem) : LoneOp → LoneItem
  | .item op => l.act op
  | .registerIcon name glyph =>
    { l with catalog := (l.catalog.register name glyph).toOption.getD l.catalog }
  | .answerWith brightness script => { l with host := { l.host with brightness, script } }
  | .runTask n => l.runTask n

def run (l : LoneItem) (ops : List LoneOp) : LoneItem := ops.foldl step l

@[simp] theorem run_nil (l : LoneItem) : l.run [] = l := rfl

theorem run_cons (l : LoneItem) (op : LoneOp) (ops : List LoneOp) :
    l.run (op :: ops) = (l.step op).run ops := rfl

theorem run_append (l : LoneItem) (ops ops' : List LoneOp) :
    l.run (ops ++ ops') = (l.run ops).run ops' := List.foldl_append

end LoneItem

namespace BarItem

@[simp] theorem receive_item (b : BarItem) (ticket : MountTicket)
    (answer : Except ActionError Brightness) : (b.receive ticket answer).item = b.item := by
  cases b with
  | generic i => rfl
  | settings s =>
    change (s.receive ticket answer).item = s.item
    unfold SettingsItem.receive
    split
    · split <;> rfl
    · rfl

@[simp] theorem runTask_item (b : BarItem) (host : Host) (task : HostTask) :
    (b.runTask host task).1.item = b.item := by
  cases task with
  | call c => rfl
  | queryBrightness id ticket => exact b.receive_item ticket _

@[simp] theorem runTask_id (b : BarItem) (host : Host) (task : HostTask) :
    (b.runTask host task).1.id = b.id :=
  congrArg Item.id (b.runTask_item host task)

theorem runTask_snd (b : BarItem) (host : Host) (task : HostTask) :
    (b.runTask host task).2 = { host with calls := host.calls ++ [task.hostCall] } := by
  cases task <;> rfl

end BarItem

namespace Host

theorem fetchBrightness_eq_ok_iff (h : Host) (b : Brightness) :
    h.fetchBrightness.1 = .ok b ↔ h.reported? = some b := by
  have ha : h.fetchBrightness.1 = readBrightness (h.answer .getMainMonitorBrightness) := rfl
  rw [ha, reported?]
  cases h.answer .getMainMonitorBrightness with
  | error e => simp [readBrightness]
  | ok j =>
    simp only [readBrightness]
    cases Brightness.ofJson? j <;> simp

end Host

theorem SettingsItem.receive_fetched (s : SettingsItem) (ticket : MountTicket) (host : Host) :
    s.receive ticket host.fetchBrightness.1 =
      match host.reported? with
      | some b => if ticket.isCurrent s.item.lifecycle then { s with brightness := b } else s
      | none => s := by
  cases hr : host.reported? with
  | some b => rw [(host.fetchBrightness_eq_ok_iff b).mpr hr, receive]
  | none =>
    cases hf : host.fetchBrightness.1 with
    | ok b => rw [(host.fetchBrightness_eq_ok_iff b).mp hf] at hr; cases hr
    | error e => rfl

namespace SettingsItem

variable {s : SettingsItem} {task : HostTask}

theorem isQuery_refreshBrightness (h : task ∈ s.refreshBrightness) : task.IsQuery := by
  unfold refreshBrightness at h
  split at h
  · obtain ⟨ticket, -, rfl⟩ := Option.map_eq_some_iff.mp (Option.mem_toList.mp h)
    trivial
  · cases h

theorem isQuery_setOpen {isOpen : Bool} (h : task ∈ (s.setOpen isOpen).2) : task.IsQuery := by
  unfold setOpen at h
  split at h
  · cases h
  · exact isQuery_refreshBrightness h

end SettingsItem

end TemplateBar
