import Mathlib.Order.Monotone.Basic
import TemplateBar.Proofs.Template.Budget
import TemplateBar.Proofs.Template.Grammar

/-!
# Sizes of expressions

The number of nodes of a tree and its height. An evaluation visits each node at most once, and none
deeper than the tree is high, whatever the scope and whatever comes out; so a budget that suffices
for the tree is never used up.
-/
namespace TemplateBar.Template

namespace Expr

mutual

/-- The weight of a tree whose nodes weigh one each; `join` puts the trees below a node together. -/
def weigh (join : Nat → Nat → Nat) : Expr → Nat
  | null | bool _ | number _ | string _ | name _ => 1
  | array items => weighItems join items + 1
  | object fields => weighFields join fields + 1
  | unary _ operand => weigh join operand + 1
  | power base exponent => join (weigh join base) (weigh join exponent) + 1
  | chain first rest => join (weigh join first) (weighChain join rest) + 1
  | logical _ operands => weighItems join operands + 1
  | conditional condition thenCase elseCase =>
    join (weigh join condition) (join (weigh join thenCase) (weigh join elseCase)) + 1
  | member owner _ => weigh join owner + 1
  | index owner key => join (weigh join owner) (weigh join key) + 1
  | call callee args => join (weigh join callee) (weighItems join args) + 1

def weighItems (join : Nat → Nat → Nat) : List Expr → Nat
  | [] => 0
  | e :: es => join (weigh join e) (weighItems join es)

def weighFields (join : Nat → Nat → Nat) : List (String × Expr) → Nat
  | [] => 0
  | (_, e) :: fields => join (weigh join e) (weighFields join fields)

def weighChain (join : Nat → Nat → Nat) : List (InfixOp × Expr) → Nat
  | [] => 0
  | (_, e) :: rest => join (weigh join e) (weighChain join rest)

end

/-- The number of nodes. -/
def size (e : Expr) : Nat := e.weigh (· + ·)

/-- The number of nodes on the longest way down. -/
def height (e : Expr) : Nat := e.weigh max

variable {join : Nat → Nat → Nat}

theorem weighFields_eq (fields : List (String × Expr)) :
    weighFields join fields = weighItems join (fields.map (·.2)) := by
  induction fields with
  | nil => rfl
  | cons field fields ih => rw [weighFields, ih, List.map_cons, weighItems]

theorem weighChain_eq (rest : List (InfixOp × Expr)) :
    weighChain join rest = weighItems join (rest.map (·.2)) := by
  induction rest with
  | nil => rfl
  | cons link rest ih => rw [weighChain, ih, List.map_cons, weighItems]

theorem weigh_node_cons (l : Level) (first : Expr) (link : l.Op × Expr)
    (rest : List (l.Op × Expr)) :
    (l.node first (link :: rest)).weigh join =
      join (first.weigh join) (weighItems join ((link :: rest).map (·.2))) + 1 := by
  cases l with
  | logical op => rfl
  | chain level => exact congrArg (join (first.weigh join) · + 1) (weighChain_eq (link :: rest))

theorem weigh_atom {k : LexemeKind} {e : Expr} (h : k.atom? = some e) : e.weigh join = 1 := by
  unfold LexemeKind.atom? at h
  split at h <;> simp only [Option.some.injEq, reduceCtorEq] at h
  all_goals
    subst h
    rfl

end Expr

namespace Walk

variable {α β : Type}

/-- At most `n` visits, all of them above `bottom`. -/
structure Fits (w : Walk α) (n bottom : Nat) : Prop where
  steps : w.steps ≤ n
  above : ∀ d ∈ w.visits, d < bottom

variable {w : Walk α} {n n' bottom bottom' : Nat}

theorem Fits.mono (h : w.Fits n bottom) (hn : n ≤ n') (hbottom : bottom ≤ bottom') :
    w.Fits n' bottom' :=
  ⟨h.steps.trans hn, fun d hd => (h.above d hd).trans_le hbottom⟩

theorem fits_pure (a : α) (n bottom : Nat) : (pure a : Walk α).Fits n bottom :=
  ⟨Nat.zero_le _, fun _ hd => absurd hd List.not_mem_nil⟩

theorem fits_lift (r : Except EvalError α) (n bottom : Nat) : (lift r).Fits n bottom :=
  ⟨Nat.zero_le _, fun _ hd => absurd hd List.not_mem_nil⟩

/-- A node weighs one more than what is below it. -/
theorem Fits.visit {d height : Nat} (h : w.Fits n (d + 1 + height)) :
    (visit d w).Fits (n + 1) (d + (height + 1)) where
  steps := Nat.succ_le_succ h.steps
  above := by
    intro d' hd'
    rcases List.mem_cons.mp hd' with rfl | hd'
    · omega
    · exact (h.above d' hd').trans_le (by omega)

theorem Fits.bind {d height height' : Nat} {f : α → Walk β} (h : w.Fits n (d + height))
    (hf : ∀ a, (f a).Fits n' (d + height')) :
    (w >>= f).Fits (n + n') (d + max height height') := by
  have hleft : d + height ≤ d + max height height' := by omega
  have hright : d + height' ≤ d + max height height' := by omega
  obtain ⟨outcome, visits⟩ := w
  cases outcome with
  | error err =>
    have hcut : (⟨.error err, visits⟩ : Walk β).Fits n (d + height) := ⟨h.steps, h.above⟩
    exact hcut.mono (Nat.le_add_right _ _) hleft
  | ok a =>
    constructor
    · change (visits ++ (f a).visits).length ≤ _
      rw [List.length_append]
      exact Nat.add_le_add h.steps (hf a).steps
    · intro d' hd'
      rcases List.mem_append.mp hd' with hd' | hd'
      · exact (h.above d' hd').trans_le hleft
      · exact ((hf a).above d' hd').trans_le hright

/-- What comes after visits nothing. -/
theorem Fits.bind_free {d height : Nat} {f : α → Walk β} (h : w.Fits n (d + height))
    (hf : ∀ a, (f a).Fits 0 (d + 0)) : (w >>= f).Fits n (d + height) := by
  have hbind := h.bind hf
  rwa [Nat.add_zero, Nat.max_zero] at hbind

theorem fits_lift_bind (r : Except EvalError α) {f : α → Walk β}
    (hf : ∀ a, (f a).Fits n bottom) : (lift r >>= f).Fits n bottom := by
  cases r with
  | ok a => exact hf a
  | error err => exact fits_lift _ _ _

theorem Fits.ite {p : Prop} [Decidable p] {v : Walk α} {height height' d : Nat}
    (h : w.Fits n (d + height)) (h' : v.Fits n' (d + height')) :
    (if p then w else v).Fits (n + n') (d + max height height') := by
  split
  · exact h.mono (by omega) (by omega)
  · exact h'.mono (by omega) (by omega)

theorem Fits.depth_le (h : w.Fits n (bottom + 1)) : w.depth ≤ bottom :=
  depth_le_iff.mpr fun d hd => Nat.le_of_lt_succ (h.above d hd)

/-- Budgets only cut off. -/
theorem snd_within_le (limits : Limits) (w : Walk α) (n : Nat) :
    (w.within limits n).2 ≤ n + w.steps := by
  obtain ⟨outcome, visits⟩ := w
  induction visits generalizing n with
  | nil => exact Nat.le_refl _
  | cons d visits ih =>
    have hlater := ih (n + 1)
    simp only [steps] at hlater
    change (Metered.charge limits d ((⟨outcome, visits⟩ : Walk α).within limits) n).2 ≤ _
    unfold Metered.charge
    simp only [steps, List.length_cons]
    split
    · exact Nat.add_le_add_left (Nat.succ_le_succ (Nat.zero_le _)) n
    · split
      · exact Nat.add_le_add_left (Nat.succ_le_succ (Nat.zero_le _)) n
      · omega

/-- A budget that suffices is never reported as used up, even where the other one is. -/
theorem within_ne_limit (limits : Limits) (hw : w.IsUnlimited) :
    (w.steps ≤ limits.maxSteps → ∀ m, (w.within limits 0).1 ≠ .error (.stepLimit m)) ∧
    (w.depth ≤ limits.maxDepth → ∀ m, (w.within limits 0).1 ≠ .error (.depthLimit m)) := by
  by_cases hin : w.steps ≤ limits.maxSteps ∧ w.depth ≤ limits.maxDepth
  · rw [within_of_le (by omega) hin.2]
    have hnever : ∀ err, err.isLimit = true → w.outcome ≠ .error err := by
      intro err hlimit hout
      rw [hw err hout] at hlimit
      exact absurd hlimit (by simp)
    exact ⟨fun _ m => hnever _ rfl, fun _ m => hnever _ rfl⟩
  · have hle := w.shallow_le_steps limits.maxDepth
    have heq := w.shallow_eq_steps_iff limits.maxDepth
    rw [within_of_not_le hin]
    constructor
    · intro hsteps m
      have hdeep : ¬limits.maxSteps ≤ w.shallow limits.maxDepth :=
        fun hfirst => hin ⟨hsteps, heq.mp (by omega)⟩
      rw [if_neg hdeep]
      simp
    · intro hdepth m
      have hlong : limits.maxSteps < w.steps := Nat.lt_of_not_le fun hle => hin ⟨hle, hdepth⟩
      rw [if_pos (by rw [heq.mpr hdepth]; exact hlong.le)]
      simp

end Walk

variable {F : Type} [DecidableEq F] [HostFunction F]

namespace Expr

open Walk

mutual

/-- A walk visits no more nodes than there are and none below the lowest one. -/
theorem fits_walk (scope : Scope F) (d : Nat) :
    ∀ e : Expr, (walk scope d e).Fits e.size (d + e.height)
  -- The parts come one after the other, as they are walked; what is lifted visits nothing.
  | null | bool _ | number _ | string _ => (fits_pure _ 0 (d + 1 + 0)).visit
  | name _ => (fits_lift _ 0 (d + 1 + 0)).visit
  | array items =>
    ((fits_walkItems scope (d + 1) items).bind_free fun _ => fits_pure _ _ _).visit
  | object fields =>
    ((fits_walkFields scope (d + 1) [] fields).bind_free fun _ => fits_pure _ _ _).visit
  | unary _ operand => ((fits_walk scope (d + 1) operand).bind_free fun _ => fits_lift _ _ _).visit
  | power base exponent =>
    ((fits_walk scope (d + 1) base).bind fun _ =>
      (fits_walk scope (d + 1) exponent).bind_free fun _ => fits_lift _ _ _).visit
  | chain first rest =>
    ((fits_walk scope (d + 1) first).bind fun a => fits_walkChain scope (d + 1) a rest).visit
  | logical op operands =>
    ((fits_walkLogical scope (d + 1) (op = .or) operands).bind_free fun _ => fits_pure _ _ _).visit
  | conditional condition thenCase elseCase =>
    ((fits_walk scope (d + 1) condition).bind fun _ =>
      (fits_walk scope (d + 1) thenCase).ite (fits_walk scope (d + 1) elseCase)).visit
  | member owner _ => ((fits_walk scope (d + 1) owner).bind_free fun _ => fits_lift _ _ _).visit
  | index owner key =>
    ((fits_walk scope (d + 1) owner).bind fun _ =>
      (fits_walk scope (d + 1) key).bind_free fun _ => fits_lift _ _ _).visit
  | call callee args =>
    ((fits_walk scope (d + 1) callee).bind fun _ => fits_lift_bind _ fun _ =>
      (fits_walkItems scope (d + 1) args).bind_free fun _ => fits_lift _ _ _).visit

theorem fits_walkItems (scope : Scope F) (d : Nat) :
    ∀ es : List Expr, (walkItems scope d es).Fits (weighItems (· + ·) es) (d + weighItems max es)
  | [] => fits_pure _ _ _
  | e :: es =>
    (fits_walk scope d e).bind fun _ =>
      (fits_walkItems scope d es).bind_free fun _ => fits_pure _ _ _

theorem fits_walkFields (scope : Scope F) (d : Nat) (seen : Dict (Value F)) :
    ∀ fields : List (String × Expr), (walkFields scope d seen fields).Fits
      (weighFields (· + ·) fields) (d + weighFields max fields)
  | [] => fits_pure _ _ _
  | (key, e) :: fields =>
    (fits_walk scope d e).bind fun v => fits_walkFields scope d (Dict.insert seen key v) fields

theorem fits_walkChain (scope : Scope F) (d : Nat) (a : Value F) :
    ∀ rest : List (InfixOp × Expr), (walkChain scope d a rest).Fits
      (weighChain (· + ·) rest) (d + weighChain max rest)
  | [] => fits_pure _ _ _
  | (_, e) :: rest =>
    (fits_walk scope d e).bind fun _ => fits_lift_bind _ fun c => fits_walkChain scope d c rest

theorem fits_walkLogical (scope : Scope F) (d : Nat) (stop : Bool) :
    ∀ es : List Expr, (walkLogical scope d stop es).Fits
      (weighItems (· + ·) es) (d + weighItems max es)
  | [] => fits_pure _ _ _
  | e :: es =>
    (fits_walk scope d e).bind fun _ => by
      split
      · exact fits_pure _ _ _
      · exact fits_walkLogical scope d stop es

end

end Expr
end TemplateBar.Template
