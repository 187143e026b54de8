import TemplateBar.Template.Operation

/-!
# Evaluation within budgets

Evaluating an expression counts one step for every node it visits and refuses nodes that nest too
deep. The count survives failures: a `Metered` computation maps the steps counted so far to an
outcome and the steps counted then. The depth of a node is an argument, so it needs no undoing.
-/
namespace TemplateBar.Template

/-- The budgets of an evaluation; the second one also bounds the nesting of a source. -/
structure Limits where
  maxSteps : Nat := 10000
  maxDepth : Nat := 64
  deriving DecidableEq, Repr

/-- A computation that counts steps. -/
def Metered (α : Type) : Type := Nat → Except EvalError α × Nat

namespace Metered

variable {α β : Type}

protected def pure (a : α) : Metered α := fun steps => (.ok a, steps)

protected def bind (m : Metered α) (f : α → Metered β) : Metered β := fun steps =>
  match m steps with
  | (.ok a, steps') => f a steps'
  | (.error e, steps') => (.error e, steps')

instance : Monad Metered where
  pure := Metered.pure
  bind := Metered.bind

/-- An outcome that costs nothing. -/
def lift (r : Except EvalError α) : Metered α := fun steps => (r, steps)

/-- Count one step, then refuse a node deeper than allowed. -/
def charge (limits : Limits) (depth : Nat) (m : Metered α) : Metered α := fun steps =>
  if limits.maxSteps < steps + 1 then (.error (.stepLimit limits.maxSteps), steps + 1)
  else if limits.maxDepth < depth then (.error (.depthLimit limits.maxDepth), steps + 1)
  else m (steps + 1)

@[simp] theorem pure_apply (a : α) (steps : Nat) :
    (Pure.pure a : Metered α) steps = (.ok a, steps) := rfl

@[simp] theorem lift_apply (r : Except EvalError α) (steps : Nat) : lift r steps = (r, steps) := rfl

theorem bind_apply (m : Metered α) (f : α → Metered β) (steps : Nat) :
    (m >>= f) steps = match m steps with
      | (.ok a, steps') => f a steps'
      | (.error e, steps') => (.error e, steps') := rfl

end Metered

variable {F : Type} [DecidableEq F] [HostFunction F]

/-- The value of a name: the scope's, or else the built-in function of that name. -/
def Scope.resolve (scope : Scope F) (name : String) : Except EvalError (Value F) :=
  match Dict.get? scope name with
  | some v => .ok v
  | none =>
    match Builtin.lookup name with
    | some b => .ok (.function (.builtin b))
    | none => .error (.undefinedName name)

/-- The function that a callee's value is. -/
def Value.callee : Value F → Except EvalError (Function F)
  | function f => .ok f
  | v => .error (.notCallable v.kind.name)

namespace Expr

open Metered

mutual

/-- Evaluate a node that nests `depth` deep. -/
def eval (scope : Scope F) (limits : Limits) (depth : Nat) : Expr → Metered (Value F)
  | null => charge limits depth (return .null)
  | bool b => charge limits depth (return .bool b)
  | number x => charge limits depth (return .number x)
  | string s => charge limits depth (return .string s)
  | name s => charge limits depth (lift (Scope.resolve scope s))
  | array items => charge limits depth do
    return .array (← evalItems scope limits (depth + 1) items)
  | object fields => charge limits depth do
    return .object (← evalFields scope limits (depth + 1) [] fields)
  | unary op operand => charge limits depth do
    let v ← eval scope limits (depth + 1) operand
    lift (op.apply v)
  | power base exponent => charge limits depth do
    let a ← eval scope limits (depth + 1) base
    let b ← eval scope limits (depth + 1) exponent
    lift (a.power b)
  | chain first rest => charge limits depth do
    let a ← eval scope limits (depth + 1) first
    evalChain scope limits (depth + 1) a rest
  | logical op operands => charge limits depth do
    return .bool (← evalLogical scope limits (depth + 1) (op = .or) operands)
  | conditional condition thenCase elseCase => charge limits depth do
    let c ← eval scope limits (depth + 1) condition
    if c.truthy then eval scope limits (depth + 1) thenCase
    else eval scope limits (depth + 1) elseCase
  | member owner property => charge limits depth do
    let v ← eval scope limits (depth + 1) owner
    lift (v.member property)
  | index owner key => charge limits depth do
    let v ← eval scope limits (depth + 1) owner
    let k ← eval scope limits (depth + 1) key
    lift (v.index k)
  | call callee args => charge limits depth do
    let v ← eval scope limits (depth + 1) callee
    let f ← lift v.callee
    let vs ← evalItems scope limits (depth + 1) args
    lift (f.apply vs)

def evalItems (scope : Scope F) (limits : Limits) (depth : Nat) :
    List Expr → Metered (List (Value F))
  | [] => return []
  | e :: es => do
    let v ← eval scope limits depth e
    let vs ← evalItems scope limits depth es
    return v :: vs

/-- Fields in source order; a later field replaces an earlier one under its key. -/
def evalFields (scope : Scope F) (limits : Limits) (depth : Nat) (seen : Dict (Value F)) :
    List (String × Expr) → Metered (Dict (Value F))
  | [] => return seen
  | (key, e) :: fields => do
    let v ← eval scope limits depth e
    evalFields scope limits depth (Dict.insert seen key v) fields

/-- The operators after the value `a`, applied from left to right. -/
def evalChain (scope : Scope F) (limits : Limits) (depth : Nat) (a : Value F) :
    List (InfixOp × Expr) → Metered (Value F)
  | [] => return a
  | (op, e) :: rest => do
    let b ← eval scope limits depth e
    let c ← lift (op.apply a b)
    evalChain scope limits depth c rest

/-- Stop at the first operand whose truth is `stop`. -/
def evalLogical (scope : Scope F) (limits : Limits) (depth : Nat) (stop : Bool) :
    List Expr → Metered Bool
  | [] => return !stop
  | e :: es => do
    let v ← eval scope limits depth e
    if v.truthy = stop then return stop
    else evalLogical scope limits depth stop es

end

/-- Evaluate an expression with `steps` already counted. -/
def evaluate (scope : Scope F) (limits : Limits) (e : Expr) : Metered (Value F) :=
  eval scope limits 1 e

/-- The outcome of an evaluation on its own. -/
def outcome (scope : Scope F) (limits : Limits) (e : Expr) : Except EvalError (Value F) :=
  (evaluate scope limits e 0).1

end Expr
end TemplateBar.Template
