import TemplateBar.Template.Eval

/-!
# Evaluation without budgets

A walk is an evaluation that nothing cuts off: the nodes that it visits, each by its depth and in
order, and what comes out at the end. Evaluation within budgets is the same walk, cut off at the
first node that a budget does not allow.
-/
namespace TemplateBar.Template

structure Walk (α : Type) where
  outcome : Except EvalError α
  visits : List Nat

namespace Walk

variable {α β : Type}

protected def pure (a : α) : Walk α := ⟨.ok a, []⟩

protected def bind (w : Walk α) (f : α → Walk β) : Walk β :=
  match w.outcome with
  | .ok a => ⟨(f a).outcome, w.visits ++ (f a).visits⟩
  | .error e => ⟨.error e, w.visits⟩

instance : Monad Walk where
  pure := Walk.pure
  bind := Walk.bind

/-- An outcome without visits. -/
def lift (r : Except EvalError α) : Walk α := ⟨r, []⟩

/-- Visit a node that nests `depth` deep, then go on. -/
def visit (depth : Nat) (w : Walk α) : Walk α := ⟨w.outcome, depth :: w.visits⟩

def steps (w : Walk α) : Nat := w.visits.length

def depth (w : Walk α) : Nat := w.visits.foldr max 0

/-- How many nodes are visited before the first one that nests deeper than `maxDepth`, or all of
them if there is none. -/
def shallow (w : Walk α) (maxDepth : Nat) : Nat := w.visits.findIdx fun d => maxDepth < d

def within (limits : Limits) (w : Walk α) : Metered α :=
  w.visits.foldr (Metered.charge limits) (Metered.lift w.outcome)

theorem charge_bind (limits : Limits) (d : Nat) (m : Metered α) (f : α → Metered β) :
    Metered.charge limits d m >>= f = Metered.charge limits d (m >>= f) := by
  funext steps
  by_cases hs : limits.maxSteps < steps + 1
  · simp [Metered.bind_apply, Metered.charge, hs]
  · by_cases hd : limits.maxDepth < d
    · simp [Metered.bind_apply, Metered.charge, hs, hd]
    · simp [Metered.bind_apply, Metered.charge, hs, hd]

theorem within_pure (limits : Limits) (a : α) :
    (pure a : Walk α).within limits = pure a := rfl

theorem within_lift (limits : Limits) (r : Except EvalError α) :
    (lift r).within limits = Metered.lift r := rfl

theorem within_visit (limits : Limits) (d : Nat) (w : Walk α) :
    (visit d w).within limits = Metered.charge limits d (w.within limits) := rfl

theorem within_ite (limits : Limits) (p : Prop) [Decidable p] (v w : Walk α) :
    (if p then v else w).within limits = if p then v.within limits else w.within limits :=
  apply_ite (within limits) p v w

theorem within_bind (limits : Limits) (w : Walk α) (f : α → Walk β) :
    (w >>= f).within limits = w.within limits >>= fun a => (f a).within limits := by
  obtain ⟨outcome, visits⟩ := w
  induction visits with
  | nil => cases outcome <;> rfl
  | cons d visits ih =>
    have hcons : (⟨outcome, d :: visits⟩ : Walk α) >>= f = visit d (⟨outcome, visits⟩ >>= f) := by
      cases outcome <;> rfl
    calc ((⟨outcome, d :: visits⟩ : Walk α) >>= f).within limits
        = Metered.charge limits d (((⟨outcome, visits⟩ : Walk α) >>= f).within limits) := by
          rw [hcons]; rfl
      _ = Metered.charge limits d
            ((⟨outcome, visits⟩ : Walk α).within limits >>= fun a => (f a).within limits) := by
          rw [ih]
      _ = _ := (charge_bind limits d _ _).symm

end Walk

variable {F : Type} [DecidableEq F] [HostFunction F]

namespace Expr

open Walk

mutual

def walk (scope : Scope F) (depth : Nat) : Expr → Walk (Value F)
  | null => visit depth (return .null)
  | bool b => visit depth (return .bool b)
  | number x => visit depth (return .number x)
  | string s => visit depth (return .string s)
  | name s => visit depth (lift (Scope.resolve scope s))
  | array items => visit depth do
    return .array (← walkItems scope (depth + 1) items)
  | object fields => visit depth do
    return .object (← walkFields scope (depth + 1) [] fields)
  | unary op operand => visit depth do
    let v ← walk scope (depth + 1) operand
    lift (op.apply v)
  | power base exponent => visit depth do
    let a ← walk scope (depth + 1) base
    let b ← walk scope (depth + 1) exponent
    lift (a.power b)
  | chain first rest => visit depth do
    let a ← walk scope (depth + 1) first
    walkChain scope (depth + 1) a rest
  | logical op operands => visit depth do
    return .bool (← walkLogical scope (depth + 1) (op = .or) operands)
  | conditional condition thenCase elseCase => visit depth do
    let c ← walk scope (depth + 1) condition
    if c.truthy then walk scope (depth + 1) thenCase
    else walk scope (depth + 1) elseCase
  | member owner property => visit depth do
    let v ← walk scope (depth + 1) owner
    lift (v.member property)
  | index owner key => visit depth do
    let v ← walk scope (depth + 1) owner
    let k ← walk scope (depth + 1) key
    lift (v.index k)
  | call callee args => visit depth do
    let v ← walk scope (depth + 1) callee
    let f ← lift v.callee
    let vs ← walkItems scope (depth + 1) args
    lift (f.apply vs)

def walkItems (scope : Scope F) (depth : Nat) : List Expr → Walk (List (Value F))
  | [] => return []
  | e :: es => do
    let v ← walk scope depth e
    let vs ← walkItems scope depth es
    return v :: vs

/-- Fields in source order; a later field replaces an earlier one under its key. -/
def walkFields (scope : Scope F) (depth : Nat) (seen : Dict (Value F)) :
    List (String × Expr) → Walk (Dict (Value F))
  | [] => return seen
  | (key, e) :: fields => do
    let v ← walk scope depth e
    walkFields scope depth (Dict.insert seen key v) fields

/-- The operators after the value `a`, applied from left to right. -/
def walkChain (scope : Scope F) (depth : Nat) (a : Value F) :
    List (InfixOp × Expr) → Walk (Value F)
  | [] => return a
  | (op, e) :: rest => do
    let b ← walk scope depth e
    let c ← lift (op.apply a b)
    walkChain scope depth c rest

def walkLogical (scope : Scope F) (depth : Nat) (stop : Bool) : List Expr → Walk Bool
  | [] => return !stop
  | e :: es => do
    let v ← walk scope depth e
    if v.truthy = stop then return stop
    else walkLogical scope depth stop es

end

mutual

/-- Evaluation is the walk, as far as the budgets allow. -/
theorem eval_eq_walk (scope : Scope F) (limits : Limits) (depth : Nat) :
    ∀ e : Expr, eval scope limits depth e = (walk scope depth e).within limits
  | null | bool _ | number _ | string _ | name _ => by
    simp only [eval, walk, within_visit, within_pure, within_lift]
  | array items => by
    simp only [eval, walk, within_visit, within_bind, within_pure, evalItems_eq_walk]
  | object fields => by
    simp only [eval, walk, within_visit, within_bind, within_pure, evalFields_eq_walk]
  | unary op operand => by
    simp only [eval, walk, within_visit, within_bind, within_lift, eval_eq_walk]
  | power base exponent => by
    simp only [eval, walk, within_visit, within_bind, within_lift, eval_eq_walk]
  | chain first rest => by
    simp only [eval, walk, within_visit, within_bind, eval_eq_walk, evalChain_eq_walk]
  | logical op operands => by
    simp only [eval, walk, within_visit, within_bind, within_pure, evalLogical_eq_walk]
  | conditional condition thenCase elseCase => by
    simp only [eval, walk, within_visit, within_bind, within_ite, eval_eq_walk]
  | member owner property => by
    simp only [eval, walk, within_visit, within_bind, within_lift, eval_eq_walk]
  | index owner key => by
    simp only [eval, walk, within_visit, within_bind, within_lift, eval_eq_walk]
  | call callee args => by
    simp only [eval, walk, within_visit, within_bind, within_lift, eval_eq_walk, evalItems_eq_walk]

theorem evalItems_eq_walk (scope : Scope F) (limits : Limits) (depth : Nat) :
    ∀ es : List Expr, evalItems scope limits depth es = (walkItems scope depth es).within limits
  | [] => by simp only [evalItems, walkItems, within_pure]
  | e :: es => by
    simp only [evalItems, walkItems, within_bind, within_pure, eval_eq_walk, evalItems_eq_walk]

theorem evalFields_eq_walk (scope : Scope F) (limits : Limits) (depth : Nat)
    (seen : Dict (Value F)) :
    ∀ fields : List (String × Expr), evalFields scope limits depth seen fields =
      (walkFields scope depth seen fields).within limits
  | [] => by simp only [evalFields, walkFields, within_pure]
  | (key, e) :: fields => by
    simp only [evalFields, walkFields, within_bind, eval_eq_walk, evalFields_eq_walk]

theorem evalChain_eq_walk (scope : Scope F) (limits : Limits) (depth : Nat) (a : Value F) :
    ∀ rest : List (InfixOp × Expr),
      evalChain scope limits depth a rest = (walkChain scope depth a rest).within limits
  | [] => by simp only [evalChain, walkChain, within_pure]
  | (op, e) :: rest => by
    simp only [evalChain, walkChain, within_bind, within_lift, eval_eq_walk, evalChain_eq_walk]

theorem evalLogical_eq_walk (scope : Scope F) (limits : Limits) (depth : Nat) (stop : Bool) :
    ∀ es : List Expr,
      evalLogical scope limits depth stop es = (walkLogical scope depth stop es).within limits
  | [] => by simp only [evalLogical, walkLogical, within_pure]
  | e :: es => by
    simp only [evalLogical, walkLogical, within_bind, within_ite, within_pure, eval_eq_walk,
      evalLogical_eq_walk]

end

end Expr
end TemplateBar.Template
