import TemplateBar.Proofs.Template.Walk

/-!
# Failures of operations

Operators and built-in functions never fail with the error of a budget. So where the functions
supplied from outside do not do so either, no walk ends with such an error.
-/
namespace TemplateBar.Template

variable {F : Type} {α β : Type}

/-- Failures other than those of a budget. -/
def Unlimited (r : Except EvalError α) : Prop := ∀ err, r = .error err → err.isLimit = false

/-- Functions supplied from outside report no budget as used up. -/
def HostsUnlimited (F : Type) [HostFunction F] : Prop :=
  ∀ (f : F) (args : List (Value F)), Unlimited (HostFunction.apply f args)

@[simp] theorem unlimited_ok (a : α) : Unlimited (.ok a : Except EvalError α) := by
  intro err h
  cases h

@[simp] theorem unlimited_error_iff {err : EvalError} :
    Unlimited (.error err : Except EvalError α) ↔ err.isLimit = false := by
  constructor
  · intro h
    exact h err rfl
  · intro h err' herr
    cases herr
    exact h

theorem unlimited_bind {r : Except EvalError α} {f : α → Except EvalError β} (hr : Unlimited r)
    (hf : ∀ a, Unlimited (f a)) : Unlimited (r >>= f) := by
  cases r with
  | ok a => exact hf a
  | error err => exact unlimited_error_iff.mpr (hr err rfl)

theorem unlimited_foldlM {f : β → α → Except EvalError β} (hf : ∀ b a, Unlimited (f b a))
    (b : β) (xs : List α) : Unlimited (xs.foldlM f b) := by
  induction xs generalizing b with
  | nil => exact unlimited_ok b
  | cons x xs ih =>
    rw [List.foldlM_cons]
    exact unlimited_bind (hf b x) ih

namespace EvalError

@[simp] theorem isLimit_undefinedName (name : String) : (undefinedName name).isLimit = false := rfl

@[simp] theorem isLimit_typeError (cause : TypeCause) : (typeError cause).isLimit = false := rfl

@[simp] theorem isLimit_notCallable (kind : String) : (notCallable kind).isLimit = false := rfl

@[simp] theorem isLimit_badArguments (function : String) (cause : ArgumentCause) :
    (badArguments function cause).isLimit = false := rfl

end EvalError

theorem UnaryOp.unlimited_apply (op : UnaryOp) (v : Value F) : Unlimited (op.apply v) := by
  unfold UnaryOp.apply
  split <;> simp

namespace InfixOp

@[simp] theorem isLimit_mismatch (op : InfixOp) (a b : Value F) :
    (op.mismatch a b).isLimit = false := rfl

theorem unlimited_applyArithmetic (op : InfixOp) (f : Float → Float → Float) (a b : Value F) :
    Unlimited (op.applyArithmetic f a b) := by
  unfold applyArithmetic
  split <;> simp

theorem unlimited_applyOrder (op : InfixOp) (numbers : Float → Float → Bool)
    (texts : String → String → Bool) (a b : Value F) :
    Unlimited (op.applyOrder numbers texts a b) := by
  unfold applyOrder
  split <;> simp

theorem unlimited_apply [DecidableEq F] [FunctionName F] (op : InfixOp) (a b : Value F) :
    Unlimited (op.apply a b) := by
  unfold apply
  split
  · exact unlimited_ok _
  · exact unlimited_ok _
  · split
    · exact unlimited_ok _
    · split
      · exact op.unlimited_applyOrder _ _ a b
      · exact op.unlimited_applyArithmetic _ a b
      · simp

end InfixOp

namespace Value

theorem unlimited_power (a b : Value F) : Unlimited (a.power b) := by
  unfold power
  split <;> simp

theorem unlimited_member (v : Value F) (property : String) : Unlimited (v.member property) := by
  unfold member
  split <;> simp

theorem unlimited_place (position : Float) (size : Nat) : Unlimited (place position size) := by
  unfold place
  split
  · split <;> simp
  · simp

theorem unlimited_index (v k : Value F) : Unlimited (v.index k) := by
  unfold index
  split
  · simp
  · split
    · simp
    · rename_i herr
      exact unlimited_error_iff.mpr (unlimited_place _ _ _ herr)
  · split
    · simp
    · rename_i herr
      exact unlimited_error_iff.mpr (unlimited_place _ _ _ herr)
  · simp

theorem unlimited_callee (v : Value F) : Unlimited v.callee := by
  unfold callee
  split <;> simp

end Value

namespace Builtin

@[simp] theorem unlimited_reject (b : Builtin) (cause : ArgumentCause) :
    Unlimited (b.reject cause : Except EvalError (Value F)) :=
  unlimited_error_iff.mpr rfl

theorem unlimited_expectNumber (b : Builtin) (v : Value F) : Unlimited (expectNumber b v) := by
  unfold expectNumber
  split <;> simp

theorem unlimited_toNumber (v : Value F) : Unlimited (toNumber v) := by
  unfold toNumber
  split <;> try simp
  split
  · simp
  · split <;> simp

theorem unlimited_roundPlaces (x digits : Float) :
    Unlimited (roundPlaces x digits : Except EvalError (Value F)) := by
  unfold roundPlaces
  split
  · split <;> simp
  · simp

theorem unlimited_foldNumbers (b : Builtin) (op : Float → Float → Float) (args : List (Value F)) :
    Unlimited (foldNumbers b op args) := by
  unfold foldNumbers
  split
  · simp
  · refine unlimited_bind (unlimited_expectNumber b _) fun x => ?_
    refine unlimited_bind (unlimited_foldlM (fun acc v => ?_) _ _) fun y => unlimited_ok _
    exact unlimited_bind (unlimited_expectNumber b v) fun y => unlimited_ok _

theorem unlimited_unaryNumber (b : Builtin) (op : Float → Float) (args : List (Value F)) :
    Unlimited (unaryNumber b op args) := by
  unfold unaryNumber
  split
  · exact unlimited_bind (unlimited_expectNumber b _) fun x => unlimited_ok _
  · simp

theorem unlimited_apply [FunctionName F] (b : Builtin) (args : List (Value F)) :
    Unlimited (b.apply args) := by
  unfold apply
  split
  · simp
  · simp
  · simp
  · exact unlimited_toNumber _
  · simp
  · exact unlimited_bind (unlimited_expectNumber _ _) fun x => unlimited_ok _
  · refine unlimited_bind (unlimited_expectNumber _ _) fun x => ?_
    exact unlimited_bind (unlimited_expectNumber _ _) fun digits => unlimited_roundPlaces x digits
  · simp
  · exact unlimited_unaryNumber _ _ _
  · exact unlimited_unaryNumber _ _ _
  · exact unlimited_unaryNumber _ _ _
  · exact unlimited_foldNumbers _ _ _
  · exact unlimited_foldNumbers _ _ _

end Builtin

theorem unlimited_invokeEffect (args : List (Value F)) : Unlimited (invokeEffect args) := by
  unfold invokeEffect
  split <;> simp

theorem Function.unlimited_apply [HostFunction F] (hhost : HostsUnlimited F) (f : Function F)
    (args : List (Value F)) : Unlimited (f.apply args) := by
  cases f with
  | builtin b => exact b.unlimited_apply args
  | host f => exact hhost f args

theorem unlimited_resolve (scope : Scope F) (name : String) :
    Unlimited (Scope.resolve scope name) := by
  unfold Scope.resolve
  split
  · simp
  · split <;> simp

namespace Walk

def IsUnlimited (w : Walk α) : Prop := Unlimited w.outcome

theorem isUnlimited_pure (a : α) : (pure a : Walk α).IsUnlimited := unlimited_ok a

theorem isUnlimited_lift {r : Except EvalError α} (h : Unlimited r) : (lift r).IsUnlimited := h

theorem isUnlimited_visit {w : Walk α} (depth : Nat) (h : w.IsUnlimited) :
    (visit depth w).IsUnlimited := h

theorem isUnlimited_bind {w : Walk α} {f : α → Walk β} (hw : w.IsUnlimited)
    (hf : ∀ a, (f a).IsUnlimited) : (w >>= f).IsUnlimited := by
  obtain ⟨outcome, visits⟩ := w
  cases outcome with
  | ok a => exact hf a
  | error err => exact unlimited_error_iff.mpr (hw err rfl)

end Walk

namespace Expr

open Walk

variable [DecidableEq F] [HostFunction F]

mutual

theorem isUnlimited_walk (hhost : HostsUnlimited F) (scope : Scope F) (depth : Nat) :
    ∀ e : Expr, (walk scope depth e).IsUnlimited
  | null | bool _ | number _ | string _ => by
    rw [walk]
    exact isUnlimited_visit depth (isUnlimited_pure _)
  | name s => by
    rw [walk]
    exact isUnlimited_visit depth (isUnlimited_lift (unlimited_resolve scope s))
  | array items => by
    rw [walk]
    refine isUnlimited_visit depth (isUnlimited_bind ?_ fun vs => isUnlimited_pure _)
    exact isUnlimited_walkItems hhost scope (depth + 1) items
  | object fields => by
    rw [walk]
    refine isUnlimited_visit depth (isUnlimited_bind ?_ fun d => isUnlimited_pure _)
    exact isUnlimited_walkFields hhost scope (depth + 1) [] fields
  | unary op operand => by
    rw [walk]
    refine isUnlimited_visit depth (isUnlimited_bind ?_ fun v => ?_)
    · exact isUnlimited_walk hhost scope (depth + 1) operand
    · exact isUnlimited_lift (op.unlimited_apply v)
  | power base exponent => by
    rw [walk]
    refine isUnlimited_visit depth (isUnlimited_bind ?_ fun a => isUnlimited_bind ?_ fun b => ?_)
    · exact isUnlimited_walk hhost scope (depth + 1) base
    · exact isUnlimited_walk hhost scope (depth + 1) exponent
    · exact isUnlimited_lift (a.unlimited_power b)
  | chain first rest => by
    rw [walk]
    refine isUnlimited_visit depth (isUnlimited_bind ?_ fun a => ?_)
    · exact isUnlimited_walk hhost scope (depth + 1) first
    · exact isUnlimited_walkChain hhost scope (depth + 1) a rest
  | logical op operands => by
    rw [walk]
    refine isUnlimited_visit depth (isUnlimited_bind ?_ fun b => isUnlimited_pure _)
    exact isUnlimited_walkLogical hhost scope (depth + 1) _ operands
  | conditional condition thenCase elseCase => by
    rw [walk]
    refine isUnlimited_visit depth (isUnlimited_bind ?_ fun v => ?_)
    · exact isUnlimited_walk hhost scope (depth + 1) condition
    · split
      · exact isUnlimited_walk hhost scope (depth + 1) thenCase
      · exact isUnlimited_walk hhost scope (depth + 1) elseCase
  | member owner property => by
    rw [walk]
    refine isUnlimited_visit depth (isUnlimited_bind ?_ fun v => ?_)
    · exact isUnlimited_walk hhost scope (depth + 1) owner
    · exact isUnlimited_lift (v.unlimited_member property)
  | index owner key => by
    rw [walk]
    refine isUnlimited_visit depth (isUnlimited_bind ?_ fun v => isUnlimited_bind ?_ fun k => ?_)
    · exact isUnlimited_walk hhost scope (depth + 1) owner
    · exact isUnlimited_walk hhost scope (depth + 1) key
    · exact isUnlimited_lift (v.unlimited_index k)
  | call callee args => by
    rw [walk]
    refine isUnlimited_visit depth (isUnlimited_bind ?_ fun v => isUnlimited_bind ?_ fun f =>
      isUnlimited_bind ?_ fun vs => ?_)
    · exact isUnlimited_walk hhost scope (depth + 1) callee
    · exact isUnlimited_lift v.unlimited_callee
    · exact isUnlimited_walkItems hhost scope (depth + 1) args
    · exact isUnlimited_lift (f.unlimited_apply hhost vs)

theorem isUnlimited_walkItems (hhost : HostsUnlimited F) (scope : Scope F) (depth : Nat) :
    ∀ es : List Expr, (walkItems scope depth es).IsUnlimited
  | [] => by
    rw [walkItems]
    exact isUnlimited_pure _
  | e :: es => by
    rw [walkItems]
    refine isUnlimited_bind ?_ fun v => isUnlimited_bind ?_ fun vs => isUnlimited_pure _
    · exact isUnlimited_walk hhost scope depth e
    · exact isUnlimited_walkItems hhost scope depth es

theorem isUnlimited_walkFields (hhost : HostsUnlimited F) (scope : Scope F) (depth : Nat)
    (seen : Dict (Value F)) :
    ∀ fields : List (String × Expr), (walkFields scope depth seen fields).IsUnlimited
  | [] => by
    rw [walkFields]
    exact isUnlimited_pure _
  | (key, e) :: fields => by
    rw [walkFields]
    refine isUnlimited_bind ?_ fun v => ?_
    · exact isUnlimited_walk hhost scope depth e
    · exact isUnlimited_walkFields hhost scope depth _ fields

theorem isUnlimited_walkChain (hhost : HostsUnlimited F) (scope : Scope F) (depth : Nat)
    (a : Value F) : ∀ rest : List (InfixOp × Expr), (walkChain scope depth a rest).IsUnlimited
  | [] => by
    rw [walkChain]
    exact isUnlimited_pure _
  | (op, e) :: rest => by
    rw [walkChain]
    refine isUnlimited_bind ?_ fun b => isUnlimited_bind ?_ fun c => ?_
    · exact isUnlimited_walk hhost scope depth e
    · exact isUnlimited_lift (op.unlimited_apply a b)
    · exact isUnlimited_walkChain hhost scope depth c rest

theorem isUnlimited_walkLogical (hhost : HostsUnlimited F) (scope : Scope F) (depth : Nat)
    (stop : Bool) : ∀ es : List Expr, (walkLogical scope depth stop es).IsUnlimited
  | [] => by
    rw [walkLogical]
    exact isUnlimited_pure _
  | e :: es => by
    rw [walkLogical]
    refine isUnlimited_bind ?_ fun v => ?_
    · exact isUnlimited_walk hhost scope depth e
    · split
      · exact isUnlimited_pure _
      · exact isUnlimited_walkLogical hhost scope depth stop es

end

end Expr
end TemplateBar.Template
