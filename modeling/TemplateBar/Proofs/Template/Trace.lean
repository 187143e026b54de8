import TemplateBar.Proofs.Template.Budget

/-!
# The nodes that an evaluation visits

A trace is an evaluation that writes down every node as it comes to it. It counts no levels, so an
expression leaves the same trace wherever it stands. Where the budgets suffice, an evaluation comes
to what the trace comes to, in as many steps as the trace has visits.
-/
namespace TemplateBar.Template

structure Trace (α : Type) where
  outcome : Except EvalError α
  visits : List Expr

namespace Trace

variable {α β γ : Type}

protected def pure (a : α) : Trace α := ⟨.ok a, []⟩

protected def bind (t : Trace α) (f : α → Trace β) : Trace β :=
  match t.outcome with
  | .ok a => ⟨(f a).outcome, t.visits ++ (f a).visits⟩
  | .error e => ⟨.error e, t.visits⟩

instance : Monad Trace where
  pure := Trace.pure
  bind := Trace.bind

/-- An outcome without visits. -/
def lift (r : Except EvalError α) : Trace α := ⟨r, []⟩

/-- Come to a node, then go on. -/
def visit (e : Expr) (t : Trace α) : Trace α := ⟨t.outcome, e :: t.visits⟩

theorem pure_bind (a : α) (f : α → Trace β) : (pure a >>= f : Trace β) = f a := rfl

theorem visit_bind (e : Expr) (t : Trace α) (f : α → Trace β) :
    visit e t >>= f = visit e (t >>= f) := by
  obtain ⟨outcome, visits⟩ := t
  cases outcome <;> rfl

theorem bind_assoc (t : Trace α) (f : α → Trace β) (g : β → Trace γ) :
    t >>= f >>= g = t >>= fun a => f a >>= g := by
  obtain ⟨outcome, visits⟩ := t
  cases outcome with
  | error err => rfl
  | ok a =>
    cases hf : f a with
    | mk outcome' visits' =>
      simp only [Bind.bind, Trace.bind, hf]
      cases outcome' with
      | error err => rfl
      | ok b => simp only [List.append_assoc]

theorem ite_bind (p : Prop) [Decidable p] (t t' : Trace α) (f : α → Trace β) :
    (if p then t else t') >>= f = if p then t >>= f else t' >>= f :=
  apply_ite (· >>= f) p t t'

/-- The walk comes to what the trace comes to, over as many nodes. -/
structure Follows (w : Walk α) (t : Trace α) : Prop where
  outcome : w.outcome = t.outcome
  steps : w.visits.length = t.visits.length

theorem follows_pure (a : α) : Follows (pure a) (pure a) := ⟨rfl, rfl⟩

theorem follows_lift (r : Except EvalError α) : Follows (Walk.lift r) (lift r) := ⟨rfl, rfl⟩

theorem Follows.visit {w : Walk α} {t : Trace α} (h : Follows w t) (depth : Nat) (e : Expr) :
    Follows (Walk.visit depth w) (visit e t) :=
  ⟨h.outcome, congrArg (· + 1) h.steps⟩

theorem Follows.bind {w : Walk α} {t : Trace α} {f : α → Walk β} {g : α → Trace β}
    (h : Follows w t) (hf : ∀ a, Follows (f a) (g a)) : Follows (w >>= f) (t >>= g) := by
  obtain ⟨outcome, visits⟩ := w
  obtain ⟨outcome', visits'⟩ := t
  obtain ⟨houtcome, hsteps⟩ := h
  obtain rfl : outcome = outcome' := houtcome
  cases outcome with
  | error err => exact ⟨rfl, hsteps⟩
  | ok a =>
    refine ⟨(hf a).outcome, ?_⟩
    change (visits ++ (f a).visits).length = (visits' ++ (g a).visits).length
    rw [List.length_append, List.length_append, (hf a).steps]
    exact congrArg (· + _) hsteps

theorem Follows.ite {p : Prop} [Decidable p] {w w' : Walk α} {t t' : Trace α} (h : Follows w t)
    (h' : Follows w' t') : Follows (if p then w else w') (if p then t else t') := by
  by_cases hp : p
  · simpa [hp] using h
  · simpa [hp] using h'

end Trace

variable {F : Type} [DecidableEq F] [HostFunction F]

namespace Expr

open Trace

mutual

def trace (scope : Scope F) : Expr → Trace (Value F)
  | null => visit null (return .null)
  | bool b => visit (bool b) (return .bool b)
  | number x => visit (number x) (return .number x)
  | string s => visit (string s) (return .string s)
  | name s => visit (name s) (lift (Scope.resolve scope s))
  | array items => visit (array items) do
    return .array (← traceItems scope items)
  | object fields => visit (object fields) do
    return .object (← traceFields scope [] fields)
  | unary op operand => visit (unary op operand) do
    let v ← trace scope operand
    lift (op.apply v)
  | power base exponent => visit (power base exponent) do
    let a ← trace scope base
    let b ← trace scope exponent
    lift (a.power b)
  | chain first rest => visit (chain first rest) do
    let a ← trace scope first
    traceChain scope a rest
  | logical op operands => visit (logical op operands) do
    return .bool (← traceLogical scope (op = .or) operands)
  | conditional condition thenCase elseCase => visit (conditional condition thenCase elseCase) do
    let c ← trace scope condition
    if c.truthy then trace scope thenCase else trace scope elseCase
  | member owner property => visit (member owner property) do
    let v ← trace scope owner
    lift (v.member property)
  | index owner key => visit (index owner key) do
    let v ← trace scope owner
    let k ← trace scope key
    lift (v.index k)
  | call callee args => visit (call callee args) do
    let v ← trace scope callee
    let f ← lift v.callee
    let vs ← traceItems scope args
    lift (f.apply vs)

def traceItems (scope : Scope F) : List Expr → Trace (List (Value F))
  | [] => return []
  | e :: es => do
    let v ← trace scope e
    let vs ← traceItems scope es
    return v :: vs

def traceFields (scope : Scope F) (seen : Dict (Value F)) :
    List (String × Expr) → Trace (Dict (Value F))
  | [] => return seen
  | (key, e) :: fields => do
    let v ← trace scope e
    traceFields scope (Dict.insert seen key v) fields

def traceChain (scope : Scope F) (a : Value F) : List (InfixOp × Expr) → Trace (Value F)
  | [] => return a
  | (op, e) :: rest => do
    let b ← trace scope e
    let c ← lift (op.apply a b)
    traceChain scope c rest

def traceLogical (scope : Scope F) (stop : Bool) : List Expr → Trace Bool
  | [] => return !stop
  | e :: es => do
    let v ← trace scope e
    if v.truthy = stop then return stop
    else traceLogical scope stop es

end

mutual

theorem follows_walk (scope : Scope F) (depth : Nat) :
    ∀ e : Expr, Follows (walk scope depth e) (trace scope e)
  | null | bool _ | number _ | string _ => by
    rw [walk, trace]
    exact (follows_pure _).visit depth _
  | name s => by
    rw [walk, trace]
    exact (follows_lift _).visit depth _
  | array items => by
    rw [walk, trace]
    exact ((follows_walkItems scope (depth + 1) items).bind fun vs => follows_pure _).visit depth _
  | object fields => by
    rw [walk, trace]
    exact ((follows_walkFields scope (depth + 1) [] fields).bind fun d =>
      follows_pure _).visit depth _
  | unary op operand => by
    rw [walk, trace]
    exact ((follows_walk scope (depth + 1) operand).bind fun v => follows_lift _).visit depth _
  | power base exponent => by
    rw [walk, trace]
    exact ((follows_walk scope (depth + 1) base).bind fun a =>
      (follows_walk scope (depth + 1) exponent).bind fun b => follows_lift _).visit depth _
  | chain first rest => by
    rw [walk, trace]
    exact ((follows_walk scope (depth + 1) first).bind fun a =>
      follows_walkChain scope (depth + 1) a rest).visit depth _
  | logical op operands => by
    rw [walk, trace]
    exact ((follows_walkLogical scope (depth + 1) _ operands).bind fun b =>
      follows_pure _).visit depth _
  | conditional condition thenCase elseCase => by
    rw [walk, trace]
    exact ((follows_walk scope (depth + 1) condition).bind fun c =>
      (follows_walk scope (depth + 1) thenCase).ite
        (follows_walk scope (depth + 1) elseCase)).visit depth _
  | member owner property => by
    rw [walk, trace]
    exact ((follows_walk scope (depth + 1) owner).bind fun v => follows_lift _).visit depth _
  | index owner key => by
    rw [walk, trace]
    exact ((follows_walk scope (depth + 1) owner).bind fun v =>
      (follows_walk scope (depth + 1) key).bind fun k => follows_lift _).visit depth _
  | call callee args => by
    rw [walk, trace]
    exact ((follows_walk scope (depth + 1) callee).bind fun v => (follows_lift _).bind fun f =>
      (follows_walkItems scope (depth + 1) args).bind fun vs => follows_lift _).visit depth _

theorem follows_walkItems (scope : Scope F) (depth : Nat) :
    ∀ es : List Expr, Follows (walkItems scope depth es) (traceItems scope es)
  | [] => by
    rw [walkItems, traceItems]
    exact follows_pure _
  | e :: es => by
    rw [walkItems, traceItems]
    exact (follows_walk scope depth e).bind fun v =>
      (follows_walkItems scope depth es).bind fun vs => follows_pure _

theorem follows_walkFields (scope : Scope F) (depth : Nat) (seen : Dict (Value F)) :
    ∀ fields : List (String × Expr),
      Follows (walkFields scope depth seen fields) (traceFields scope seen fields)
  | [] => by
    rw [walkFields, traceFields]
    exact follows_pure _
  | (key, e) :: fields => by
    rw [walkFields, traceFields]
    exact (follows_walk scope depth e).bind fun v =>
      follows_walkFields scope depth (Dict.insert seen key v) fields

theorem follows_walkChain (scope : Scope F) (depth : Nat) (a : Value F) :
    ∀ rest : List (InfixOp × Expr),
      Follows (walkChain scope depth a rest) (traceChain scope a rest)
  | [] => by
    rw [walkChain, traceChain]
    exact follows_pure _
  | (op, e) :: rest => by
    rw [walkChain, traceChain]
    exact (follows_walk scope depth e).bind fun b => (follows_lift _).bind fun c =>
      follows_walkChain scope depth c rest

theorem follows_walkLogical (scope : Scope F) (depth : Nat) (stop : Bool) :
    ∀ es : List Expr, Follows (walkLogical scope depth stop es) (traceLogical scope stop es)
  | [] => by
    rw [walkLogical, traceLogical]
    exact follows_pure _
  | e :: es => by
    rw [walkLogical, traceLogical]
    exact (follows_walk scope depth e).bind fun v =>
      (follows_pure _).ite (follows_walkLogical scope depth stop es)

end

end Expr

open TemplateBar.Template.Expr (walk trace evaluate)

/-- The budgets are large enough for the whole evaluation. -/
def Limits.Suffice (limits : Limits) (scope : Scope F) (e : Expr) : Prop :=
  (walk scope 1 e).steps ≤ limits.maxSteps ∧ (walk scope 1 e).depth ≤ limits.maxDepth

namespace Expr

variable {limits : Limits} {scope : Scope F} {e : Expr}

theorem evaluate_of_suffice (h : limits.Suffice scope e) :
    evaluate scope limits e 0 = ((trace scope e).outcome, (trace scope e).visits.length) := by
  have htrace := follows_walk scope 1 e
  rw [evaluate, eval_eq_walk, Walk.within_of_le (by simpa using h.1) h.2, htrace.outcome,
    Nat.zero_add, Walk.steps, htrace.steps]

theorem outcome_of_suffice (h : limits.Suffice scope e) :
    outcome scope limits e = (trace scope e).outcome := by
  rw [outcome, evaluate_of_suffice h]

/-- Where a budget does not suffice, the error of a budget comes out. -/
theorem outcome_of_not_suffice (h : ¬limits.Suffice scope e) :
    outcome scope limits e = .error (.stepLimit limits.maxSteps) ∨
      outcome scope limits e = .error (.depthLimit limits.maxDepth) := by
  rw [outcome, evaluate, eval_eq_walk, Walk.within_of_not_le h]
  split
  · exact Or.inl rfl
  · exact Or.inr rfl

end Expr
end TemplateBar.Template
