import TemplateBar.Error

/-!
# Lifecycles

An item is unmounted, has its scope being filled, or is active. Each mount has a number and an
identity of its own; a ticket taken while active names a mount, and is current for as long as that
mount lasts.
-/
namespace TemplateBar

namespace ItemState

/-- The moves of a lifecycle. -/
def canMoveTo : ItemState → ItemState → Bool
  | unmounted, seeding => true
  | seeding, active => true
  | seeding, unmounted => true
  | active, unmounted => true
  | _, _ => false

end ItemState

/-- What tells one mount of an item from its others. -/
structure MountId where
  number : Nat
  deriving DecidableEq, Repr

structure Lifecycle where
  state : ItemState
  /-- How many mounts were begun. -/
  generation : Nat
  mountId : Option MountId
  deriving DecidableEq, Repr

/-- A mount, as named while the item was active in it. -/
structure MountTicket where
  generation : Nat
  mountId : MountId
  deriving DecidableEq, Repr

namespace Lifecycle

def initial : Lifecycle := ⟨.unmounted, 0, none⟩

/-- The lifecycle after an allowed move. -/
def moved (l : Lifecycle) : ItemState → Lifecycle
  | .seeding => ⟨.seeding, l.generation + 1, some ⟨l.generation⟩⟩
  | .unmounted => { l with state := .unmounted, mountId := none }
  | .active => { l with state := .active }

/-- Move to another state; a move that is not allowed changes nothing. -/
def transition (l : Lifecycle) (target : ItemState) : Except BarError Lifecycle :=
  if l.state.canMoveTo target then .ok (l.moved target)
  else .error (.lifecycle (.invalidTransition l.state target))

/-- A ticket for the current mount, while active. -/
def ticket? (l : Lifecycle) : Option MountTicket :=
  if l.state = .active then l.mountId.map (⟨l.generation, ·⟩) else none

end Lifecycle

/-- The lifecycle is still active in the mount that the ticket was taken in. -/
def MountTicket.isCurrent (t : MountTicket) (l : Lifecycle) : Bool :=
  l.state = .active && l.generation = t.generation

end TemplateBar
