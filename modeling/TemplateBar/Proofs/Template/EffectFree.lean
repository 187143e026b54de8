import TemplateBar.Proofs.Dict
import TemplateBar.Proofs.Template.Walk

/-!
# Effects come from functions

An effect is no literal, no operator makes one and no built-in function does. So an expression
yields one only if the scope holds one, or a function that makes one, under a name that the
expression mentions.
-/
namespace TemplateBar.Template

variable {F : Type} {α β : Type}

/-- No effect in a value at any depth, and of the functions supplied from outside only safe ones. -/
inductive Value.EffectFree (safe : F → Prop) : Value F → Prop
  | null : EffectFree safe .null
  | bool (b : Bool) : EffectFree safe (.bool b)
  | number (x : Float) : EffectFree safe (.number x)
  | string (s : String) : EffectFree safe (.string s)
  | array {items : List (Value F)} (h : ∀ v ∈ items, EffectFree safe v) :
    EffectFree safe (.array items)
  | object {fields : List (String × Value F)} (h : ∀ e ∈ fields, EffectFree safe e.2) :
    EffectFree safe (.object fields)
  | builtin (b : Builtin) : EffectFree safe (.function (.builtin b))
  | host {f : F} (h : safe f) : EffectFree safe (.function (.host f))

/-- Safe functions make values without effects from values without effects. -/
def SafeHosts [HostFunction F] (safe : F → Prop) : Prop :=
  ∀ f args v, safe f → (∀ a ∈ args, Value.EffectFree safe a) → HostFunction.apply f args = .ok v →
    v.EffectFree safe

/-- What comes out, if anything does, has a property. -/
def Yields (Q : α → Prop) (r : Except EvalError α) : Prop := ∀ a, r = .ok a → Q a

section

variable {Q : α → Prop} {R : β → Prop}

@[simp] theorem yields_ok_iff {a : α} : Yields Q (.ok a) ↔ Q a := by
  constructor
  · intro h
    exact h a rfl
  · intro h b hb
    cases hb
    exact h

@[simp] theorem yields_error (err : EvalError) : Yields Q (.error err) := by
  intro a h
  cases h

theorem Yields.bind {r : Except EvalError α} {f : α → Except EvalError β} (hr : Yields Q r)
    (hf : ∀ a, Q a → Yields R (f a)) : Yields R (r >>= f) := by
  cases r with
  | ok a => exact hf a (hr a rfl)
  | error err => exact yields_error err

/-- Whatever comes out of the first part. -/
theorem Yields.bind_any {r : Except EvalError α} {f : α → Except EvalError β}
    (hf : ∀ a, Yields R (f a)) : Yields R (r >>= f) :=
  Yields.bind (fun _ _ => trivial) fun a _ => hf a

end

variable {safe : F → Prop}

namespace Value

theorem effectFree_getD {d : Dict (Value F)} (h : ∀ e ∈ d, e.2.EffectFree safe) (key : String) :
    ((Dict.get? d key).getD null).EffectFree safe := by
  induction d with
  | nil => exact .null
  | cons e rest ih =>
    obtain ⟨k, v⟩ := e
    simp only [Dict.get?]
    split
    · exact h _ List.mem_cons_self
    · exact ih fun e he => h e (List.mem_cons_of_mem _ he)

theorem effectFree_getD_items {items : List (Value F)} (h : ∀ v ∈ items, v.EffectFree safe)
    (n : Nat) : (items.getD n null).EffectFree safe := by
  rw [List.getD_eq_getElem?_getD]
  cases hn : items[n]? with
  | none => exact .null
  | some v => exact h v (List.mem_of_getElem? hn)

theorem effectFree_insert {d : Dict (Value F)} {v : Value F} (h : ∀ e ∈ d, e.2.EffectFree safe)
    (hv : v.EffectFree safe) (key : String) : ∀ e ∈ Dict.insert d key v, e.2.EffectFree safe := by
  intro e he
  rcases Dict.mem_insert he with rfl | he
  · exact hv
  · exact h e he

theorem effectFree_overlay {d extra : Dict (Value F)} (h : ∀ e ∈ d, e.2.EffectFree safe)
    (he : ∀ e ∈ extra, e.2.EffectFree safe) :
    ∀ e ∈ Dict.overlay d extra, e.2.EffectFree safe := by
  induction extra generalizing d with
  | nil => exact h
  | cons e extra ih =>
    obtain ⟨hfirst, hrest⟩ := List.forall_mem_cons.mp he
    exact ih (effectFree_insert h hfirst e.1) hrest

mutual

/-- Documents hold no effects, whatever their fields are called. -/
theorem effectFree_ofJson : ∀ j : Json, (ofJson j : Value F).EffectFree safe
  | .null => .null
  | .bool b => .bool b
  | .int _ => .number _
  | .float x => .number x
  | .string s => .string s
  | .array items => .array (effectFree_ofItems items)
  | .object fields => .object (effectFree_ofFields fields)

theorem effectFree_ofItems : ∀ js : List Json, ∀ v ∈ (ofItems js : List (Value F)),
    v.EffectFree safe
  | [] => by
    intro v hv
    cases hv
  | j :: js => by
    intro v hv
    rcases List.mem_cons.mp hv with rfl | hv
    · exact effectFree_ofJson j
    · exact effectFree_ofItems js v hv

theorem effectFree_ofFields : ∀ fs : List (String × Json),
    ∀ e ∈ (ofFields fs : List (String × Value F)), e.2.EffectFree safe
  | [] => by
    intro e he
    cases he
  | (k, j) :: fs => by
    intro e he
    rcases List.mem_cons.mp he with rfl | he
    · exact effectFree_ofJson j
    · exact effectFree_ofFields fs e he

end

theorem yields_power (a b : Value F) : Yields (EffectFree safe) (a.power b) := by
  unfold power
  split
  · exact yields_ok_iff.mpr (.number _)
  · exact yields_error _

theorem yields_member {v : Value F} (h : v.EffectFree safe) (property : String) :
    Yields (EffectFree safe) (v.member property) := by
  unfold member
  split
  · cases h with
    | object h => exact yields_ok_iff.mpr (effectFree_getD h property)
  · exact yields_ok_iff.mpr (.number _)
  · exact yields_ok_iff.mpr (.number _)
  · exact yields_error _

theorem yields_index {v : Value F} (h : v.EffectFree safe) (key : Value F) :
    Yields (EffectFree safe) (v.index key) := by
  unfold index
  split
  · cases h with
    | object h => exact yields_ok_iff.mpr (effectFree_getD h _)
  · cases h with
    | array h =>
      split
      · exact yields_ok_iff.mpr (effectFree_getD_items h _)
      · exact yields_error _
  · split
    · exact yields_ok_iff.mpr (.string _)
    · exact yields_error _
  · exact yields_error _

theorem yields_callee {v : Value F} (h : v.EffectFree safe) :
    Yields (fun f => (Value.function f).EffectFree safe) v.callee := by
  unfold callee
  split
  · exact yields_ok_iff.mpr h
  · exact yields_error _

end Value

theorem UnaryOp.yields_apply (op : UnaryOp) (v : Value F) :
    Yields (Value.EffectFree safe) (op.apply v) := by
  unfold UnaryOp.apply
  split
  · exact yields_ok_iff.mpr (.bool _)
  · exact yields_ok_iff.mpr (.number _)
  · exact yields_error _
  · exact yields_ok_iff.mpr (.number _)
  · exact yields_error _

namespace InfixOp

theorem yields_applyArithmetic (op : InfixOp) (f : Float → Float → Float) (a b : Value F) :
    Yields (Value.EffectFree safe) (op.applyArithmetic f a b) := by
  unfold applyArithmetic
  split
  · exact yields_ok_iff.mpr (.number _)
  · exact yields_error _

theorem yields_applyOrder (op : InfixOp) (numbers : Float → Float → Bool)
    (texts : String → String → Bool) (a b : Value F) :
    Yields (Value.EffectFree safe) (op.applyOrder numbers texts a b) := by
  unfold applyOrder
  split
  · exact yields_ok_iff.mpr (.bool _)
  · exact yields_ok_iff.mpr (.bool _)
  · exact yields_error _

theorem yields_apply [DecidableEq F] [FunctionName F] (op : InfixOp) (a b : Value F) :
    Yields (Value.EffectFree safe) (op.apply a b) := by
  unfold apply
  split
  · exact yields_ok_iff.mpr (.bool _)
  · exact yields_ok_iff.mpr (.bool _)
  · split
    · exact yields_ok_iff.mpr (.string _)
    · split
      · exact op.yields_applyOrder _ _ a b
      · exact op.yields_applyArithmetic _ a b
      · exact yields_error _

end InfixOp

namespace Builtin

theorem effectFree_allItems {args items : List (Value F)}
    (h : ∀ a ∈ args, a.EffectFree safe) (hi : allItems args = some items) :
    ∀ v ∈ items, v.EffectFree safe := by
  induction args generalizing items with
  | nil =>
    obtain rfl : [] = items := Option.some.inj hi
    intro v hv
    cases hv
  | cons a args ih =>
    have hrest := fun b hb => h b (List.mem_cons_of_mem a hb)
    cases a with
    | array first =>
      obtain ⟨more, hm, rfl⟩ := Option.map_eq_some_iff.mp hi
      intro v hv
      rcases List.mem_append.mp hv with hv | hv
      · cases h _ List.mem_cons_self with
        | array hfirst => exact hfirst v hv
      · exact ih hrest hm v hv
    | _ => cases hi

theorem effectFree_concatenation [FunctionName F] {args : List (Value F)}
    (h : ∀ a ∈ args, a.EffectFree safe) : (concatenation args).EffectFree safe := by
  unfold concatenation
  split
  · next hi => exact .array (effectFree_allItems h hi)
  · exact .string _

theorem yields_toNumber (v : Value F) : Yields (Value.EffectFree safe) (toNumber v) := by
  unfold toNumber
  split
  · exact yields_ok_iff.mpr (.number _)
  · exact yields_ok_iff.mpr (.number _)
  · exact yields_ok_iff.mpr (.number _)
  · split
    · exact yields_ok_iff.mpr (.number _)
    · split
      · exact yields_ok_iff.mpr (.number _)
      · exact yields_error _
  · exact yields_error _

theorem yields_roundPlaces (x digits : Float) :
    Yields (Value.EffectFree safe) (roundPlaces x digits) := by
  unfold roundPlaces
  split
  · split
    · exact yields_ok_iff.mpr (.number _)
    · exact yields_error _
  · exact yields_error _

theorem yields_foldNumbers (b : Builtin) (op : Float → Float → Float) (args : List (Value F)) :
    Yields (Value.EffectFree safe) (foldNumbers b op args) := by
  unfold foldNumbers
  split
  · exact yields_error _
  · exact .bind_any fun x => .bind_any fun y => yields_ok_iff.mpr (.number y)

theorem yields_unaryNumber (b : Builtin) (op : Float → Float) (args : List (Value F)) :
    Yields (Value.EffectFree safe) (unaryNumber b op args) := by
  unfold unaryNumber
  split
  · exact .bind_any fun x => yields_ok_iff.mpr (.number _)
  · exact yields_error _

theorem yields_apply [FunctionName F] (b : Builtin) {args : List (Value F)}
    (h : ∀ a ∈ args, a.EffectFree safe) : Yields (Value.EffectFree safe) (b.apply args) := by
  unfold apply
  split
  · exact yields_ok_iff.mpr (effectFree_concatenation h)
  · exact yields_ok_iff.mpr (.string _)
  · exact yields_error _
  · exact yields_toNumber _
  · exact yields_error _
  · exact .bind_any fun x => yields_ok_iff.mpr (.number _)
  · exact .bind_any fun x => .bind_any fun digits => yields_roundPlaces x digits
  · exact yields_error _
  · exact yields_unaryNumber _ _ _
  · exact yields_unaryNumber _ _ _
  · exact yields_unaryNumber _ _ _
  · exact yields_foldNumbers _ _ _
  · exact yields_foldNumbers _ _ _

end Builtin

theorem Function.yields_apply [HostFunction F] (hsafe : SafeHosts safe) {f : Function F}
    (hf : (Value.function f).EffectFree safe) {args : List (Value F)}
    (h : ∀ a ∈ args, a.EffectFree safe) : Yields (Value.EffectFree safe) (f.apply args) := by
  cases f with
  | builtin b => exact b.yields_apply h
  | host f =>
    cases hf with
    | host hf => exact fun v hv => hsafe f args v hf h hv

namespace Walk

variable {Q : α → Prop} {R : β → Prop}

/-- What comes out of a walk, if anything does, has a property. -/
def Gives (Q : α → Prop) (w : Walk α) : Prop := Yields Q w.outcome

theorem gives_pure {a : α} (h : Q a) : (pure a : Walk α).Gives Q := yields_ok_iff.mpr h

theorem gives_lift {r : Except EvalError α} (h : Yields Q r) : (lift r).Gives Q := h

theorem gives_visit {w : Walk α} (depth : Nat) (h : w.Gives Q) : (visit depth w).Gives Q := h

theorem Gives.bind {w : Walk α} {f : α → Walk β} (hw : w.Gives Q)
    (hf : ∀ a, Q a → (f a).Gives R) : (w >>= f).Gives R := by
  obtain ⟨outcome, visits⟩ := w
  cases outcome with
  | ok a => exact hf a (hw a rfl)
  | error err => exact yields_error err

theorem gives_ite {p : Prop} [Decidable p] {v w : Walk α} (hv : v.Gives Q) (hw : w.Gives Q) :
    (if p then v else w).Gives Q := by
  split
  · exact hv
  · exact hw

/-- Budgets let through what comes out of a walk, or nothing. -/
theorem outcome_of_within {limits : Limits} {w : Walk α} {n : Nat} {a : α}
    (h : (w.within limits n).1 = .ok a) : w.outcome = .ok a := by
  obtain ⟨outcome, visits⟩ := w
  induction visits generalizing n with
  | nil => exact h
  | cons d visits ih =>
    change (Metered.charge limits d ((⟨outcome, visits⟩ : Walk α).within limits) n).1 = _ at h
    unfold Metered.charge at h
    split at h
    · cases h
    · split at h
      · cases h
      · exact ih h

end Walk

namespace Expr

mutual

/-- The names that an expression mentions. -/
def names : Expr → List String
  | null | bool _ | number _ | string _ => []
  | name s => [s]
  | array items => itemNames items
  | object fields => fieldNames fields
  | unary _ operand => names operand
  | power base exponent => names base ++ names exponent
  | chain first rest => names first ++ linkNames rest
  | logical _ operands => itemNames operands
  | conditional condition thenCase elseCase =>
    names condition ++ (names thenCase ++ names elseCase)
  | member owner _ => names owner
  | index owner key => names owner ++ names key
  | call callee args => names callee ++ itemNames args

def itemNames : List Expr → List String
  | [] => []
  | e :: es => names e ++ itemNames es

def fieldNames : List (String × Expr) → List String
  | [] => []
  | (_, e) :: fields => names e ++ fieldNames fields

def linkNames : List (InfixOp × Expr) → List String
  | [] => []
  | (_, e) :: rest => names e ++ linkNames rest

end

end Expr

/-- Only the given name may stand for a value that holds an effect. -/
def Scope.EffectFreeBut (safe : F → Prop) (scope : Scope F) (exempt : String) : Prop :=
  ∀ key v, Dict.get? scope key = some v → key ≠ exempt → v.EffectFree safe

theorem Scope.EffectFreeBut.resolve {scope : Scope F} {exempt : String}
    (h : scope.EffectFreeBut safe exempt) {name : String} (hn : exempt ≠ name) :
    Yields (Value.EffectFree safe) (scope.resolve name) := by
  unfold Scope.resolve
  split
  · next v hv => exact yields_ok_iff.mpr (h name v hv hn.symm)
  · split
    · exact yields_ok_iff.mpr (.builtin _)
    · exact yields_error _

namespace Expr

open Walk

variable [DecidableEq F] [HostFunction F] {scope : Scope F} {exempt : String}

mutual

theorem gives_walk (hsafe : SafeHosts safe) (hscope : scope.EffectFreeBut safe exempt)
    (depth : Nat) :
    ∀ e : Expr, exempt ∉ e.names → (walk scope depth e).Gives (Value.EffectFree safe)
  | null, _ => by
    rw [walk]
    exact gives_visit depth (gives_pure .null)
  | bool b, _ => by
    rw [walk]
    exact gives_visit depth (gives_pure (.bool b))
  | number x, _ => by
    rw [walk]
    exact gives_visit depth (gives_pure (.number x))
  | string s, _ => by
    rw [walk]
    exact gives_visit depth (gives_pure (.string s))
  | name s, h => by
    rw [names, List.mem_singleton] at h
    rw [walk]
    exact gives_visit depth (gives_lift (hscope.resolve h))
  | array items, h => by
    rw [names] at h
    rw [walk]
    have hitems := gives_walkItems hsafe hscope (depth + 1) items h
    refine gives_visit depth (hitems.bind fun vs hvs => ?_)
    exact gives_pure (.array hvs)
  | object fields, h => by
    rw [names] at h
    rw [walk]
    have hnone : ∀ e ∈ ([] : Dict (Value F)), e.2.EffectFree safe := fun e he => by cases he
    refine gives_visit depth
      (Gives.bind (gives_walkFields hsafe hscope (depth + 1) hnone fields h) fun d hd => ?_)
    exact gives_pure (.object hd)
  | unary op operand, h => by
    rw [names] at h
    rw [walk]
    have hoperand := gives_walk hsafe hscope (depth + 1) operand h
    refine gives_visit depth (hoperand.bind fun v _ => ?_)
    exact gives_lift (op.yields_apply v)
  | power base exponent, h => by
    rw [names, List.mem_append, not_or] at h
    rw [walk]
    have hbase := gives_walk hsafe hscope (depth + 1) base h.1
    refine gives_visit depth (hbase.bind fun a _ => ?_)
    refine Gives.bind (gives_walk hsafe hscope (depth + 1) exponent h.2) fun b _ => ?_
    exact gives_lift (a.yields_power b)
  | chain first rest, h => by
    rw [names, List.mem_append, not_or] at h
    rw [walk]
    have hfirst := gives_walk hsafe hscope (depth + 1) first h.1
    refine gives_visit depth (hfirst.bind fun a ha => ?_)
    exact gives_walkChain hsafe hscope (depth + 1) ha rest h.2
  | logical op operands, h => by
    -- Whatever the operands give, what comes out is a truth value.
    rw [walk]
    refine gives_visit depth (Gives.bind (Q := fun _ => True) (fun _ _ => trivial) fun b _ => ?_)
    exact gives_pure (.bool b)
  | conditional condition thenCase elseCase, h => by
    rw [names, List.mem_append, List.mem_append, not_or, not_or] at h
    rw [walk]
    have hcondition := gives_walk hsafe hscope (depth + 1) condition h.1
    refine gives_visit depth (hcondition.bind fun c _ => ?_)
    exact gives_ite (gives_walk hsafe hscope (depth + 1) thenCase h.2.1)
      (gives_walk hsafe hscope (depth + 1) elseCase h.2.2)
  | member owner property, h => by
    rw [names] at h
    rw [walk]
    have howner := gives_walk hsafe hscope (depth + 1) owner h
    refine gives_visit depth (howner.bind fun v hv => ?_)
    exact gives_lift (Value.yields_member hv property)
  | index owner key, h => by
    rw [names, List.mem_append, not_or] at h
    rw [walk]
    have howner := gives_walk hsafe hscope (depth + 1) owner h.1
    refine gives_visit depth (howner.bind fun v hv => ?_)
    refine Gives.bind (gives_walk hsafe hscope (depth + 1) key h.2) fun k _ => ?_
    exact gives_lift (Value.yields_index hv k)
  | call callee args, h => by
    rw [names, List.mem_append, not_or] at h
    rw [walk]
    have hcallee := gives_walk hsafe hscope (depth + 1) callee h.1
    refine gives_visit depth (hcallee.bind fun v hv => ?_)
    refine Gives.bind (gives_lift (Value.yields_callee hv)) fun f hf => ?_
    refine Gives.bind (gives_walkItems hsafe hscope (depth + 1) args h.2) fun vs hvs => ?_
    exact gives_lift (f.yields_apply hsafe hf hvs)

theorem gives_walkItems (hsafe : SafeHosts safe)
    (hscope : scope.EffectFreeBut safe exempt) (depth : Nat) :
    ∀ es : List Expr, exempt ∉ itemNames es →
      (walkItems scope depth es).Gives fun vs => ∀ v ∈ vs, v.EffectFree safe
  | [], _ => by
    rw [walkItems]
    exact gives_pure fun v hv => by cases hv
  | e :: es, h => by
    rw [itemNames, List.mem_append, not_or] at h
    rw [walkItems]
    refine Gives.bind (gives_walk hsafe hscope depth e h.1) fun v hv => ?_
    refine Gives.bind (gives_walkItems hsafe hscope depth es h.2) fun vs hvs => ?_
    exact gives_pure (List.forall_mem_cons.mpr ⟨hv, hvs⟩)

theorem gives_walkFields (hsafe : SafeHosts safe)
    (hscope : scope.EffectFreeBut safe exempt) (depth : Nat) {seen : Dict (Value F)}
    (hseen : ∀ e ∈ seen, e.2.EffectFree safe) :
    ∀ fields : List (String × Expr), exempt ∉ fieldNames fields →
      (walkFields scope depth seen fields).Gives fun d => ∀ e ∈ d, e.2.EffectFree safe
  | [], _ => by
    rw [walkFields]
    exact gives_pure hseen
  | (key, e) :: fields, h => by
    rw [fieldNames, List.mem_append, not_or] at h
    rw [walkFields]
    refine Gives.bind (gives_walk hsafe hscope depth e h.1) fun v hv => ?_
    exact gives_walkFields hsafe hscope depth (Value.effectFree_insert hseen hv key) fields h.2

theorem gives_walkChain (hsafe : SafeHosts safe)
    (hscope : scope.EffectFreeBut safe exempt) (depth : Nat) {a : Value F}
    (ha : a.EffectFree safe) :
    ∀ rest : List (InfixOp × Expr), exempt ∉ linkNames rest →
      (walkChain scope depth a rest).Gives (Value.EffectFree safe)
  | [], _ => by
    rw [walkChain]
    exact gives_pure ha
  | (op, e) :: rest, h => by
    rw [linkNames, List.mem_append, not_or] at h
    rw [walkChain]
    refine Gives.bind (gives_walk hsafe hscope depth e h.1) fun b _ => ?_
    have hop : Yields (Value.EffectFree safe) (op.apply a b) := op.yields_apply a b
    refine Gives.bind (gives_lift hop) fun c hc => ?_
    exact gives_walkChain hsafe hscope depth hc rest h.2

end

theorem effectFree_outcome (hsafe : SafeHosts safe) (hscope : scope.EffectFreeBut safe exempt)
    {e : Expr} (he : exempt ∉ e.names) {limits : Limits} {v : Value F}
    (h : e.outcome scope limits = .ok v) : v.EffectFree safe := by
  have hwalk : (walk scope 1 e).outcome = .ok v := by
    rw [outcome, evaluate, eval_eq_walk] at h
    exact outcome_of_within h
  exact gives_walk hsafe hscope 1 e he v hwalk

end Expr
end TemplateBar.Template
