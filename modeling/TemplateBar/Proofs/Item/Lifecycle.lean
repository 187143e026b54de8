import Mathlib.Data.Option.Basic
import TemplateBar.Item.Lifecycle

/-!
# Tickets and mounts

A lifecycle under any sequence of attempted moves, allowed or not. Between attempts it names a mount
unless it is unmounted, by the number of the mount that was begun last. Once a mount is over it
stays so, as a lifecycle that comes back to be active has begun another one: a ticket is current
exactly until the next attempt that succeeds.
-/
namespace TemplateBar

namespace ItemState

/-- The moves that are allowed. -/
def moves : List (ItemState × ItemState) :=
  [(.unmounted, .seeding), (.seeding, .active), (.seeding, .unmounted), (.active, .unmounted)]

theorem canMoveTo_iff (s target : ItemState) : s.canMoveTo target = true ↔ (s, target) ∈ moves := by
  cases s <;> cases target <;> decide

end ItemState

namespace Lifecycle

open ItemState (moves)

/-- Attempt a move; a refused one leaves everything as it is. -/
def attempt (l : Lifecycle) (target : ItemState) : Lifecycle :=
  (l.transition target).toOption.getD l

def run (l : Lifecycle) (targets : List ItemState) : Lifecycle := targets.foldl attempt l

/-- The targets of the attempts that succeed. -/
def succeeded (l : Lifecycle) : List ItemState → List ItemState
  | [] => []
  | target :: targets =>
    match l.transition target with
    | .ok l' => target :: succeeded l' targets
    | .error _ => succeeded l targets

variable {l : Lifecycle} {target : ItemState}

theorem run_cons (l : Lifecycle) (target : ItemState) (targets : List ItemState) :
    l.run (target :: targets) = (l.attempt target).run targets := rfl

theorem run_append (l : Lifecycle) (targets targets' : List ItemState) :
    l.run (targets ++ targets') = (l.run targets).run targets' := by
  simp [run, List.foldl_append]

theorem transition_of_mem (h : (l.state, target) ∈ moves) :
    l.transition target = .ok (l.moved target) := by
  rw [transition, if_pos ((ItemState.canMoveTo_iff _ _).mpr h)]

theorem transition_of_not_mem (h : (l.state, target) ∉ moves) :
    l.transition target = .error (.lifecycle (.invalidTransition l.state target)) := by
  rw [transition, if_neg fun hc => h ((ItemState.canMoveTo_iff _ _).mp hc)]

theorem attempt_of_mem (h : (l.state, target) ∈ moves) : l.attempt target = l.moved target := by
  simp [attempt, transition_of_mem h, Except.toOption]

theorem attempt_of_not_mem (h : (l.state, target) ∉ moves) : l.attempt target = l := by
  simp [attempt, transition_of_not_mem h, Except.toOption]

theorem succeeded_of_mem (h : (l.state, target) ∈ moves) (targets : List ItemState) :
    l.succeeded (target :: targets) = target :: (l.moved target).succeeded targets := by
  rw [succeeded, transition_of_mem h]

theorem succeeded_of_not_mem (h : (l.state, target) ∉ moves) (targets : List ItemState) :
    l.succeeded (target :: targets) = l.succeeded targets := by
  rw [succeeded, transition_of_not_mem h]

@[simp] theorem moved_state (l : Lifecycle) (target : ItemState) :
    (l.moved target).state = target := by
  cases target <;> rfl

theorem moved_generation (l : Lifecycle) (target : ItemState) :
    (l.moved target).generation = l.generation + if target = .seeding then 1 else 0 := by
  cases target <;> rfl

/-- Each entry into seeding begins a mount, and nothing else does. -/
theorem run_generation (l : Lifecycle) (targets : List ItemState) :
    (l.run targets).generation = l.generation + (l.succeeded targets).count .seeding := by
  induction targets generalizing l with
  | nil => rfl
  | cons target targets ih =>
    rw [run_cons]
    by_cases h : (l.state, target) ∈ moves
    · rw [attempt_of_mem h, succeeded_of_mem h, ih, moved_generation, List.count_cons]
      simp only [beq_iff_eq]
      omega
    · rw [attempt_of_not_mem h, succeeded_of_not_mem h, ih]

/-- The mount that a lifecycle is in is the last one that was begun. -/
structure Numbered (l : Lifecycle) : Prop where
  mountId : l.mountId = if l.state = .unmounted then none else some ⟨l.generation - 1⟩
  begun : l.state ≠ .unmounted → 0 < l.generation

theorem numbered_initial : initial.Numbered where
  mountId := rfl
  begun := fun h => absurd rfl h

theorem Numbered.attempt (h : l.Numbered) (target : ItemState) : (l.attempt target).Numbered := by
  by_cases hm : (l.state, target) ∈ moves
  · rw [attempt_of_mem hm]
    cases target with
    | unmounted => exact ⟨rfl, fun hn => absurd rfl hn⟩
    | seeding => exact ⟨rfl, fun _ => Nat.succ_pos _⟩
    | active =>
      have hs : l.state ≠ .unmounted := by
        intro hs
        rw [hs] at hm
        exact absurd hm (by decide)
      refine ⟨?_, fun _ => h.begun hs⟩
      change l.mountId = _
      rw [h.mountId, if_neg hs]
      rfl
  · rw [attempt_of_not_mem hm]
    exact h

theorem Numbered.run (h : l.Numbered) (targets : List ItemState) : (l.run targets).Numbered := by
  induction targets generalizing l with
  | nil => exact h
  | cons target targets ih => exact ih (h.attempt target)

theorem Numbered.mountId_isSome_iff (h : l.Numbered) :
    l.mountId.isSome ↔ l.state ≠ .unmounted := by
  rw [h.mountId]
  split
  · next hs => simp [hs]
  · next hs => simp [hs]

theorem Numbered.ticket?_isSome_iff (h : l.Numbered) : l.ticket?.isSome ↔ l.state = .active := by
  unfold ticket?
  split
  · next hs => simp [h.mountId, hs]
  · next hs => simp [hs]

/-- The mount of that generation has ended. -/
def Over (generation : Nat) (l : Lifecycle) : Prop :=
  generation < l.generation ∨ l.generation = generation ∧ l.state = .unmounted

theorem Over.attempt {generation : Nat} (h : Over generation l) (target : ItemState) :
    Over generation (l.attempt target) := by
  by_cases hm : (l.state, target) ∈ moves
  · rw [attempt_of_mem hm]
    unfold Over at h ⊢
    rw [moved_generation]
    rcases h with h | ⟨rfl, hs⟩
    · exact Or.inl (by omega)
    · -- The only way out of being unmounted begins the next mount.
      rw [hs] at hm
      obtain rfl : target = .seeding := by
        cases target with
        | seeding => rfl
        | unmounted | active => exact absurd hm (by decide)
      exact Or.inl (by simp)
  · rw [attempt_of_not_mem hm]
    exact h

theorem Over.run {generation : Nat} (h : Over generation l) (targets : List ItemState) :
    Over generation (l.run targets) := by
  induction targets generalizing l with
  | nil => exact h
  | cons target targets ih => exact ih (h.attempt target)

/-- An active lifecycle stays as it is or has its mount ended. -/
theorem run_of_active (hs : l.state = .active) (targets : List ItemState) :
    l.succeeded targets = [] ∧ l.run targets = l ∨
      l.succeeded targets ≠ [] ∧ Over l.generation (l.run targets) := by
  induction targets with
  | nil => exact Or.inl ⟨rfl, rfl⟩
  | cons target targets ih =>
    rw [run_cons]
    by_cases hm : (l.state, target) ∈ moves
    · right
      rw [succeeded_of_mem hm, attempt_of_mem hm]
      refine ⟨List.cons_ne_nil _ _, Over.run ?_ targets⟩
      rw [hs] at hm
      obtain rfl : target = .unmounted := by
        cases target with
        | unmounted => rfl
        | seeding | active => exact absurd hm (by decide)
      exact Or.inr ⟨rfl, rfl⟩
    · rw [succeeded_of_not_mem hm, attempt_of_not_mem hm]
      exact ih

variable {t : MountTicket}

theorem Over.not_current (h : Over t.generation l) : t.isCurrent l = false := by
  unfold MountTicket.isCurrent
  rcases h with h | ⟨-, hs⟩
  · have hne : l.generation ≠ t.generation := by omega
    simp [hne]
  · simp [hs]

theorem Over.mountId_ne {generation : Nat} (h : Over generation l) (hl : l.Numbered)
    (hpos : 0 < generation) : l.mountId ≠ some ⟨generation - 1⟩ := by
  rw [hl.mountId]
  split
  · simp
  · next hs =>
    rcases h with h | ⟨-, hu⟩
    · simp only [ne_eq, Option.some.injEq, MountId.mk.injEq]
      omega
    · exact absurd hu hs

theorem Numbered.eq_of_ticket? (h : l.Numbered) (ht : l.ticket? = some t) :
    l.state = .active ∧ t = ⟨l.generation, ⟨l.generation - 1⟩⟩ := by
  have hs : l.state = .active := h.ticket?_isSome_iff.mp (by rw [ht]; rfl)
  refine ⟨hs, ?_⟩
  simpa [ticket?, hs, h.mountId, eq_comm] using ht

section

variable (h : l.Numbered) (ht : l.ticket? = some t) (later : List ItemState)

include h ht

theorem Numbered.run_of_ticket? :
    l.succeeded later = [] ∧ l.run later = l ∨
      l.succeeded later ≠ [] ∧ Over t.generation (l.run later) := by
  obtain ⟨hs, rfl⟩ := h.eq_of_ticket? ht
  exact run_of_active hs later

theorem Numbered.isCurrent_iff :
    t.isCurrent (l.run later) = true ↔ l.succeeded later = [] := by
  rcases h.run_of_ticket? ht later with ⟨hnone, heq⟩ | ⟨hsome, hover⟩
  · obtain ⟨hs, rfl⟩ := h.eq_of_ticket? ht
    exact iff_of_true (by simp [heq, MountTicket.isCurrent, hs]) hnone
  · exact iff_of_false (by simp [hover.not_current]) hsome

theorem Numbered.mountId_eq_iff :
    (l.run later).mountId = some t.mountId ↔ l.succeeded later = [] := by
  obtain ⟨hs, heq⟩ := h.eq_of_ticket? ht
  rcases h.run_of_ticket? ht later with ⟨hnone, hrun⟩ | ⟨hsome, hover⟩
  · refine iff_of_true ?_ hnone
    rw [hrun, h.mountId, hs, heq]
    rfl
  · subst heq
    exact iff_of_false (hover.mountId_ne (h.run later) (h.begun (by simp [hs]))) hsome

/-- What is stale stays stale. -/
theorem Numbered.stale_run (hstale : t.isCurrent (l.run later) = false)
    (afterwards : List ItemState) : t.isCurrent ((l.run later).run afterwards) = false := by
  rcases h.run_of_ticket? ht later with ⟨hnone, -⟩ | ⟨-, hover⟩
  · have hcurrent := (h.isCurrent_iff ht later).mpr hnone
    simp [hcurrent] at hstale
  · exact (hover.run afterwards).not_current

end

/-- Between any attempts only the allowed moves succeed and refused ones change nothing, each entry
into seeding counts, and a mount is named unless the lifecycle is unmounted. A ticket is to be had
while active; it is current as long as no attempt has succeeded, which is as long as the lifecycle
is in the mount of that name, and never again. The names that mounts are given need only differ. -/
theorem isCurrent_iff_unmoved {α : Type} {name : MountId → α} (hname : Function.Injective name)
    (before : List ItemState) :
    (∀ target,
      if ((initial.run before).state, target) ∈ moves then
        ∃ l, (initial.run before).transition target = .ok l ∧ l.state = target ∧
          initial.run (before ++ [target]) = l
      else
        ∃ err, (initial.run before).transition target = .error err ∧
          initial.run (before ++ [target]) = initial.run before) ∧
    (initial.run before).generation = (initial.succeeded before).count .seeding ∧
    ((initial.run before).mountId.isSome ↔ (initial.run before).state ≠ .unmounted) ∧
    ((initial.run before).ticket?.isSome ↔ (initial.run before).state = .active) ∧
    ∀ t, (initial.run before).ticket? = some t → ∀ later,
      (t.isCurrent (initial.run (before ++ later)) = true ↔
        (initial.run before).succeeded later = []) ∧
      (t.isCurrent (initial.run (before ++ later)) = true ↔
        (initial.run (before ++ later)).mountId.map name = some (name t.mountId)) ∧
      ∀ afterwards, t.isCurrent (initial.run (before ++ later)) = false →
        t.isCurrent (initial.run (before ++ (later ++ afterwards))) = false := by
  have hl : (initial.run before).Numbered := numbered_initial.run before
  refine ⟨fun target => ?_, ?_, hl.mountId_isSome_iff, hl.ticket?_isSome_iff, fun t ht later => ?_⟩
  · rw [run_append]
    split
    · next hm => exact ⟨_, transition_of_mem hm, moved_state _ _, attempt_of_mem hm⟩
    · next hm => exact ⟨_, transition_of_not_mem hm, attempt_of_not_mem hm⟩
  · rw [run_generation]
    exact Nat.zero_add _
  · simp only [run_append]
    refine ⟨hl.isCurrent_iff ht later, ?_, fun afterwards h => hl.stale_run ht later h afterwards⟩
    rw [hl.isCurrent_iff ht later, ← hl.mountId_eq_iff ht later, ← Option.map_some]
    exact (Option.map_injective hname).eq_iff.symm

/-- A ticket of the first mount is stale in the second one, although that one is active too. -/
theorem isCurrent_iff_unmoved_remounted :
    Function.Injective MountId.number ∧
    (initial.run [.seeding, .active]).ticket? = some ⟨1, ⟨0⟩⟩ ∧
    (initial.run [.seeding, .active, .unmounted, .seeding, .active]).state = .active ∧
    MountTicket.isCurrent ⟨1, ⟨0⟩⟩
      (initial.run [.seeding, .active, .unmounted, .seeding, .active]) = false ∧
    MountTicket.isCurrent ⟨1, ⟨0⟩⟩
      (initial.run [.seeding, .active, .unmounted, .seeding, .active, .unmounted]) = false := by
  have hname : Function.Injective MountId.number := fun a b h => by cases a; cases b; cases h; rfl
  obtain ⟨-, -, -, -, h⟩ := isCurrent_iff_unmoved hname [.seeding, .active]
  obtain ⟨hcurrent, -, hstale⟩ := h ⟨1, ⟨0⟩⟩ rfl [.unmounted, .seeding, .active]
  have hmoved : MountTicket.isCurrent ⟨1, ⟨0⟩⟩
      (initial.run [.seeding, .active, .unmounted, .seeding, .active]) = false := by
    refine Bool.eq_false_iff.mpr fun hc => ?_
    exact absurd (hcurrent.mp hc) (by decide)
  exact ⟨hname, rfl, rfl, hmoved, hstale [.unmounted] hmoved⟩

end Lifecycle
end TemplateBar
