import TemplateBar.Proofs.Template.EffectFree
import TemplateBar.Proofs.Template.Trace

/-!
# What an expression sees of a scope

The names that an expression mentions are all that its evaluation looks up, each in the scope first
and then among the built-in functions. A name that is neither here nor there ends the evaluation when
it is visited, whatever the expression around it.
-/
namespace TemplateBar.Template

variable {F : Type} {α β : Type}

namespace Scope

/-- The built-in functions as the entries of a scope. -/
def builtins : Scope F := Builtin.all.map fun b => (b.name, .function (.builtin b))

theorem get?_builtins (name : String) :
    Dict.get? (builtins : Scope F) name =
      (Builtin.lookup name).map fun b => .function (.builtin b) := by
  unfold builtins Builtin.lookup
  induction Builtin.all with
  | nil => rfl
  | cons b bs ih =>
    by_cases hb : b.name = name
    · simp [Dict.get?, hb]
    · simpa [Dict.get?, hb] using ih

/-- Names resolve as if the built-in functions stood in the scope behind all its entries. -/
theorem resolve_append_builtins (scope : Scope F) (name : String) :
    resolve (scope ++ builtins) name = resolve scope name := by
  unfold resolve
  rw [Dict.get?_append, get?_builtins]
  cases Dict.get? scope name with
  | some v => rfl
  | none => cases Builtin.lookup name <;> rfl

theorem resolve_of_get? {scope : Scope F} {name : String} {v : Value F}
    (h : Dict.get? scope name = some v) : scope.resolve name = .ok v := by
  rw [resolve, h]

theorem resolve_of_absent {scope : Scope F} {name : String} (h : Dict.get? scope name = none)
    (hb : Builtin.lookup name = none) : scope.resolve name = .error (.undefinedName name) := by
  rw [resolve, h, hb]

/-- The names mean the same in both scopes. -/
def Agree (scope scope' : Scope F) (names : List String) : Prop :=
  ∀ name ∈ names, scope.resolve name = scope'.resolve name

theorem agree_append {scope scope' : Scope F} {names names' : List String} :
    Agree scope scope' (names ++ names') ↔
      Agree scope scope' names ∧ Agree scope scope' names' :=
  List.forall_mem_append

theorem agree_of_get? {scope scope' : Scope F} {names : List String}
    (h : ∀ name ∈ names, Dict.get? scope name = Dict.get? scope' name) :
    Agree scope scope' names := by
  intro name hname
  rw [resolve, h name hname, resolve]

end Scope

open Scope (Agree agree_append)

namespace Trace

/-- If the name is visited, nothing is visited after it and it is undefined. -/
def EndsAt (name : String) (t : Trace α) : Prop :=
  .name name ∈ t.visits →
    t.outcome = .error (.undefinedName name) ∧ t.visits.getLast? = some (.name name)

variable {name : String}

theorem endsAt_pure (a : α) : EndsAt name (pure a) := fun h => by cases h

theorem endsAt_lift (r : Except EvalError α) : EndsAt name (lift r) := fun h => by cases h

theorem EndsAt.visit {t : Trace α} (h : EndsAt name t) {e : Expr} (he : .name name ≠ e) :
    EndsAt name (visit e t) := by
  intro hmem
  obtain ⟨houtcome, hlast⟩ := h (List.mem_of_ne_of_mem he hmem)
  refine ⟨houtcome, ?_⟩
  change (e :: t.visits).getLast? = _
  rw [List.getLast?_cons, hlast]
  rfl

theorem EndsAt.bind {t : Trace α} {f : α → Trace β} (h : EndsAt name t)
    (hf : ∀ a, EndsAt name (f a)) : EndsAt name (t >>= f) := by
  obtain ⟨outcome, visits⟩ := t
  cases outcome with
  | error err =>
    intro hmem
    obtain ⟨houtcome, hlast⟩ := h hmem
    cases houtcome
    exact ⟨rfl, hlast⟩
  | ok a =>
    intro hmem
    rcases List.mem_append.mp hmem with hmem | hmem
    · cases (h hmem).1
    · obtain ⟨houtcome, hlast⟩ := hf a hmem
      refine ⟨houtcome, ?_⟩
      change (visits ++ (f a).visits).getLast? = _
      rw [List.getLast?_append, hlast]
      rfl

theorem EndsAt.ite {p : Prop} [Decidable p] {t t' : Trace α} (h : EndsAt name t)
    (h' : EndsAt name t') : EndsAt name (if p then t else t') := by
  split
  · exact h
  · exact h'

end Trace

variable [DecidableEq F] [HostFunction F]

namespace Expr

section

variable {scope scope' : Scope F} (limits : Limits)

mutual

/-- Where the names that it mentions mean the same, an expression evaluates in the same way. -/
theorem eval_congr (depth : Nat) :
    ∀ e : Expr, Agree scope scope' e.names → eval scope limits depth e = eval scope' limits depth e
  | null, _ | bool _, _ | number _, _ | string _, _ => by
    simp only [eval]
  | name s, h => by
    rw [names] at h
    simp only [eval, h s (List.mem_singleton.mpr rfl)]
  | array items, h => by
    rw [names] at h
    simp only [eval, evalItems_congr (depth + 1) items h]
  | object fields, h => by
    rw [names] at h
    simp only [eval, evalFields_congr (depth + 1) [] fields h]
  | unary op operand, h => by
    rw [names] at h
    simp only [eval, eval_congr (depth + 1) operand h]
  | power base exponent, h => by
    rw [names, agree_append] at h
    simp only [eval, eval_congr (depth + 1) base h.1, eval_congr (depth + 1) exponent h.2]
  | chain first rest, h => by
    rw [names, agree_append] at h
    simp only [eval, eval_congr (depth + 1) first h.1, fun a => evalChain_congr (depth + 1) a rest h.2]
  | logical op operands, h => by
    rw [names] at h
    simp only [eval, evalLogical_congr (depth + 1) _ operands h]
  | conditional condition thenCase elseCase, h => by
    rw [names, agree_append, agree_append] at h
    simp only [eval, eval_congr (depth + 1) condition h.1, eval_congr (depth + 1) thenCase h.2.1,
      eval_congr (depth + 1) elseCase h.2.2]
  | member owner property, h => by
    rw [names] at h
    simp only [eval, eval_congr (depth + 1) owner h]
  | index owner key, h => by
    rw [names, agree_append] at h
    simp only [eval, eval_congr (depth + 1) owner h.1, eval_congr (depth + 1) key h.2]
  | call callee args, h => by
    rw [names, agree_append] at h
    simp only [eval, eval_congr (depth + 1) callee h.1, evalItems_congr (depth + 1) args h.2]

theorem evalItems_congr (depth : Nat) :
    ∀ es : List Expr, Agree scope scope' (itemNames es) →
      evalItems scope limits depth es = evalItems scope' limits depth es
  | [], _ => by simp only [evalItems]
  | e :: es, h => by
    rw [itemNames, agree_append] at h
    simp only [evalItems, eval_congr depth e h.1, evalItems_congr depth es h.2]

theorem evalFields_congr (depth : Nat) (seen : Dict (Value F)) :
    ∀ fields : List (String × Expr), Agree scope scope' (fieldNames fields) →
      evalFields scope limits depth seen fields = evalFields scope' limits depth seen fields
  | [], _ => by simp only [evalFields]
  | (key, e) :: fields, h => by
    rw [fieldNames, agree_append] at h
    simp only [evalFields, eval_congr depth e h.1, fun seen => evalFields_congr depth seen fields h.2]

theorem evalChain_congr (depth : Nat) (a : Value F) :
    ∀ rest : List (InfixOp × Expr), Agree scope scope' (linkNames rest) →
      evalChain scope limits depth a rest = evalChain scope' limits depth a rest
  | [], _ => by simp only [evalChain]
  | (op, e) :: rest, h => by
    rw [linkNames, agree_append] at h
    simp only [evalChain, eval_congr depth e h.1, fun c => evalChain_congr depth c rest h.2]

theorem evalLogical_congr (depth : Nat) (stop : Bool) :
    ∀ es : List Expr, Agree scope scope' (itemNames es) →
      evalLogical scope limits depth stop es = evalLogical scope' limits depth stop es
  | [], _ => by simp only [evalLogical]
  | e :: es, h => by
    rw [itemNames, agree_append] at h
    simp only [evalLogical, eval_congr depth e h.1, evalLogical_congr depth stop es h.2]

end

end

section

open Trace

variable {scope : Scope F} {n : String}

mutual

theorem endsAt_trace (hn : scope.resolve n = .error (.undefinedName n)) :
    ∀ e : Expr, EndsAt n (trace scope e)
  | null | bool _ | number _ | string _ => by
    rw [trace]
    exact (endsAt_pure _).visit (by nofun)
  | name s => by
    rw [trace]
    by_cases hs : s = n
    · subst hs
      rw [hn]
      exact fun _ => ⟨rfl, rfl⟩
    · exact (endsAt_lift _).visit fun h => hs (Expr.name.inj h).symm
  | array items => by
    rw [trace]
    exact ((endsAt_traceItems hn items).bind fun vs => endsAt_pure _).visit (by nofun)
  | object fields => by
    rw [trace]
    exact ((endsAt_traceFields hn [] fields).bind fun d => endsAt_pure _).visit (by nofun)
  | unary op operand => by
    rw [trace]
    exact ((endsAt_trace hn operand).bind fun v => endsAt_lift _).visit (by nofun)
  | power base exponent => by
    rw [trace]
    exact ((endsAt_trace hn base).bind fun a =>
      (endsAt_trace hn exponent).bind fun b => endsAt_lift _).visit (by nofun)
  | chain first rest => by
    rw [trace]
    exact ((endsAt_trace hn first).bind fun a => endsAt_traceChain hn a rest).visit (by nofun)
  | logical op operands => by
    rw [trace]
    exact ((endsAt_traceLogical hn _ operands).bind fun b => endsAt_pure _).visit (by nofun)
  | conditional condition thenCase elseCase => by
    rw [trace]
    exact ((endsAt_trace hn condition).bind fun c =>
      (endsAt_trace hn thenCase).ite (endsAt_trace hn elseCase)).visit (by nofun)
  | member owner property => by
    rw [trace]
    exact ((endsAt_trace hn owner).bind fun v => endsAt_lift _).visit (by nofun)
  | index owner key => by
    rw [trace]
    exact ((endsAt_trace hn owner).bind fun v =>
      (endsAt_trace hn key).bind fun k => endsAt_lift _).visit (by nofun)
  | call callee args => by
    rw [trace]
    exact ((endsAt_trace hn callee).bind fun v => (endsAt_lift _).bind fun f =>
      (endsAt_traceItems hn args).bind fun vs => endsAt_lift _).visit (by nofun)

theorem endsAt_traceItems (hn : scope.resolve n = .error (.undefinedName n)) :
    ∀ es : List Expr, EndsAt n (traceItems scope es)
  | [] => by
    rw [traceItems]
    exact endsAt_pure _
  | e :: es => by
    rw [traceItems]
    exact (endsAt_trace hn e).bind fun v => (endsAt_traceItems hn es).bind fun vs => endsAt_pure _

theorem endsAt_traceFields (hn : scope.resolve n = .error (.undefinedName n))
    (seen : Dict (Value F)) :
    ∀ fields : List (String × Expr), EndsAt n (traceFields scope seen fields)
  | [] => by
    rw [traceFields]
    exact endsAt_pure _
  | (key, e) :: fields => by
    rw [traceFields]
    exact (endsAt_trace hn e).bind fun v => endsAt_traceFields hn _ fields

theorem endsAt_traceChain (hn : scope.resolve n = .error (.undefinedName n)) (a : Value F) :
    ∀ rest : List (InfixOp × Expr), EndsAt n (traceChain scope a rest)
  | [] => by
    rw [traceChain]
    exact endsAt_pure _
  | (op, e) :: rest => by
    rw [traceChain]
    exact (endsAt_trace hn e).bind fun b => (endsAt_lift _).bind fun c => endsAt_traceChain hn c rest

theorem endsAt_traceLogical (hn : scope.resolve n = .error (.undefinedName n)) (stop : Bool) :
    ∀ es : List Expr, EndsAt n (traceLogical scope stop es)
  | [] => by
    rw [traceLogical]
    exact endsAt_pure _
  | e :: es => by
    rw [traceLogical]
    exact (endsAt_trace hn e).bind fun v =>
      (endsAt_pure _).ite (endsAt_traceLogical hn stop es)

end

end

/-- Scopes that have the same under the names that an expression mentions give the same result in as
many steps. A name that is visited while neither the scope nor the built-in functions have it is the
last node visited and makes the evaluation end with it, unless a budget is crossed. The built-in
functions count as entries behind those of the scope, so an entry of the scope hides the function of
its name. -/
theorem evaluate_of_names (e : Expr) (limits : Limits) :
    (∀ (scope scope' : Scope F) (steps : Nat),
      (∀ n ∈ e.names, Dict.get? scope n = Dict.get? scope' n) →
      evaluate scope limits e steps = evaluate scope' limits e steps) ∧
    (∀ (scope : Scope F) (n : String), .name n ∈ (trace scope e).visits →
      Dict.get? scope n = none → Builtin.lookup n = none →
      (trace scope e).visits.getLast? = some (.name n) ∧
      (limits.Suffice scope e → evaluate scope limits e 0 =
        (.error (.undefinedName n), (trace scope e).visits.length)) ∧
      (¬limits.Suffice scope e →
        outcome scope limits e = .error (.stepLimit limits.maxSteps) ∨
        outcome scope limits e = .error (.depthLimit limits.maxDepth))) ∧
    (∀ (scope : Scope F) (steps : Nat),
      evaluate (scope ++ Scope.builtins) limits e steps = evaluate scope limits e steps) ∧
    ∀ (scope : Scope F) (n : String) (v : Value F), Dict.get? scope n = some v →
      evaluate scope limits (.name n) = Metered.charge limits 1 (pure v) := by
  refine ⟨fun scope scope' steps h => ?_, fun scope n hvisited habsent hbuiltin => ?_,
    fun scope steps => ?_, fun scope n v h => ?_⟩
  · exact congrFun (eval_congr limits 1 e (Scope.agree_of_get? h)) steps
  · obtain ⟨houtcome, hlast⟩ :=
      endsAt_trace (Scope.resolve_of_absent habsent hbuiltin) e hvisited
    refine ⟨hlast, fun hsuffice => ?_, outcome_of_not_suffice⟩
    rw [evaluate_of_suffice hsuffice, houtcome]
  · exact congrFun (eval_congr limits 1 e fun n _ => scope.resolve_append_builtins n) steps
  · rw [evaluate, eval, Scope.resolve_of_get? h]
    rfl

/-- A property is looked up nowhere, and neither is a name in the case that is not taken. -/
theorem evaluate_of_names_property :
    let window : Value ItemFunction := .object [("title", .string "notes")]
    let e : Expr := .conditional (.member (.name "window") "title") (.name "gone") (.name "user")
    e.names = ["window", "gone", "user"] ∧
    (∀ steps, evaluate [("title", .null), ("window", window)] {} e steps =
      evaluate [("window", window)] {} e steps) ∧
    evaluate [("window", window)] {} e 0 = (.error (.undefinedName "gone"), 4) := by
  intro window e
  obtain ⟨hagree, hends, -⟩ := evaluate_of_names (F := ItemFunction) e {}
  have hvisited : .name "gone" ∈ (trace [("window", window)] e).visits :=
    .tail _ (.tail _ (.tail _ (.head _)))
  obtain ⟨-, hgone, -⟩ := hends [("window", window)] "gone" hvisited rfl (by decide)
  refine ⟨rfl, fun steps => hagree _ _ steps ?_, hgone ⟨by decide, by decide⟩⟩
  intro n hn
  simp only [e, names, List.cons_append, List.nil_append, List.mem_cons, List.not_mem_nil,
    or_false] at hn
  rcases hn with rfl | rfl | rfl <;> rfl

end Expr
end TemplateBar.Template
