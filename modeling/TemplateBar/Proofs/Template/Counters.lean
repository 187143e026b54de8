import TemplateBar.Proofs.Template.Budget

/-!
# One evaluator for many runs

An evaluator that is kept from run to run has two counters: the steps counted so far, which nothing
takes back, and the levels in use, of which every node takes one and gives it back when it is done,
whatever came of it. Evaluation with these counters is evaluation at the depth that the second one
tells, and leaves it as it was. So in a sequence of runs each one has all levels again, and goes as
it would on its own with the steps that are left.
-/
namespace TemplateBar.Template

variable {α β : Type}

structure Counters where
  steps : Nat
  /-- How many nodes are being evaluated, one inside the other. -/
  depth : Nat
  deriving DecidableEq, Repr

/-- A computation that moves two counters. -/
def Counted (α : Type) : Type := Counters → Except EvalError α × Counters

namespace Counted

protected def pure (a : α) : Counted α := fun c => (.ok a, c)

protected def bind (m : Counted α) (f : α → Counted β) : Counted β := fun c =>
  match m c with
  | (.ok a, c') => f a c'
  | (.error e, c') => (.error e, c')

instance : Monad Counted where
  pure := Counted.pure
  bind := Counted.bind

def lift (r : Except EvalError α) : Counted α := fun c => (r, c)

/-- Count one step, then take a level for what is done at the node and give it back. -/
def node (limits : Limits) (m : Counted α) : Counted α := fun c =>
  let counted := { c with steps := c.steps + 1 }
  if limits.maxSteps < counted.steps then (.error (.stepLimit limits.maxSteps), counted)
  else
    let entered := { counted with depth := counted.depth + 1 }
    if limits.maxDepth < entered.depth then
      (.error (.depthLimit limits.maxDepth), { entered with depth := entered.depth - 1 })
    else
      let (result, left) := m entered
      (result, { left with depth := left.depth - 1 })

theorem bind_apply (m : Counted α) (f : α → Counted β) (c : Counters) :
    (m >>= f) c = match m c with
      | (.ok a, c') => f a c'
      | (.error e, c') => (.error e, c') := rfl

/-- The computation goes as the one given for the levels in use, and uses as many afterwards. -/
def Tracks (m : Counted α) (f : Nat → Metered α) : Prop :=
  ∀ c : Counters, m c = ((f c.depth c.steps).1, ⟨(f c.depth c.steps).2, c.depth⟩)

theorem tracks_pure (a : α) : Tracks (pure a) fun _ => pure a := fun _ => rfl

theorem tracks_lift (r : Except EvalError α) : Tracks (lift r) fun _ => Metered.lift r :=
  fun _ => rfl

theorem Tracks.bind {m : Counted α} {f : Nat → Metered α} {g : α → Counted β}
    {h : Nat → α → Metered β} (hm : Tracks m f) (hg : ∀ a, Tracks (g a) fun d => h d a) :
    Tracks (m >>= g) fun d => f d >>= h d := by
  intro c
  have hrest : ∀ a n, g a ⟨n, c.depth⟩ = ((h c.depth a n).1, ⟨(h c.depth a n).2, c.depth⟩) :=
    fun a n => hg a ⟨n, c.depth⟩
  rw [bind_apply, hm c]
  change _ = (((f c.depth >>= h c.depth) c.steps).1,
    Counters.mk ((f c.depth >>= h c.depth) c.steps).2 c.depth)
  rw [Metered.bind_apply]
  rcases f c.depth c.steps with ⟨_ | a, n⟩
  · rfl
  · exact hrest a n

theorem Tracks.ite {p : Prop} [Decidable p] {m m' : Counted α} {f f' : Nat → Metered α}
    (hm : Tracks m f) (hm' : Tracks m' f') :
    Tracks (if p then m else m') fun d => if p then f d else f' d := by
  by_cases hp : p
  · simpa [hp] using hm
  · simpa [hp] using hm'

theorem Tracks.node {m : Counted α} {f : Nat → Metered α} (limits : Limits) (hm : Tracks m f) :
    Tracks (node limits m) fun d => Metered.charge limits (d + 1) (f (d + 1)) := by
  intro c
  unfold Counted.node Metered.charge
  dsimp only
  by_cases hsteps : limits.maxSteps < c.steps + 1
  · rw [if_pos hsteps, if_pos hsteps]
  · by_cases hdepth : limits.maxDepth < c.depth + 1
    · rw [if_neg hsteps, if_neg hsteps, if_pos hdepth, if_pos hdepth]
      rfl
    · rw [if_neg hsteps, if_neg hsteps, if_neg hdepth, if_neg hdepth, hm]
      rfl

end Counted

/-- A walk that starts with steps counted goes as it would with the steps that are left. -/
theorem Walk.within_remaining (w : Walk α) {limits : Limits} {t n : Nat}
    (hn : n ≤ limits.maxSteps - t) :
    ((w.within ⟨limits.maxSteps - t, limits.maxDepth⟩ n).2 ≤ limits.maxSteps - t →
      w.within limits (t + n) = ((w.within ⟨limits.maxSteps - t, limits.maxDepth⟩ n).1,
        t + (w.within ⟨limits.maxSteps - t, limits.maxDepth⟩ n).2)) ∧
    (limits.maxSteps - t < (w.within ⟨limits.maxSteps - t, limits.maxDepth⟩ n).2 →
      (w.within ⟨limits.maxSteps - t, limits.maxDepth⟩ n).1 =
        .error (.stepLimit (limits.maxSteps - t)) ∧
      w.within limits (t + n) = (.error (.stepLimit limits.maxSteps),
        t + (w.within ⟨limits.maxSteps - t, limits.maxDepth⟩ n).2)) := by
  obtain ⟨outcome, visits⟩ := w
  induction visits generalizing n with
  | nil => exact ⟨fun _ => rfl, fun hlt => absurd hlt (Nat.not_lt.mpr hn)⟩
  | cons d visits ih =>
    have hcons : ∀ (l : Limits) (k : Nat), (⟨outcome, d :: visits⟩ : Walk α).within l k =
        Metered.charge l d ((⟨outcome, visits⟩ : Walk α).within l) k := fun _ _ => rfl
    simp only [hcons, Metered.charge]
    by_cases hsteps : limits.maxSteps - t < n + 1
    · have hsteps' : limits.maxSteps < t + n + 1 := by omega
      rw [if_pos hsteps, if_pos hsteps']
      exact ⟨fun hle => absurd hsteps (Nat.not_lt.mpr hle), fun _ => ⟨rfl, rfl⟩⟩
    · have hsteps' : ¬limits.maxSteps < t + n + 1 := by omega
      rw [if_neg hsteps, if_neg hsteps']
      by_cases hdepth : limits.maxDepth < d
      · rw [if_pos hdepth, if_pos hdepth]
        exact ⟨fun _ => rfl, fun hlt => absurd hlt hsteps⟩
      · rw [if_neg hdepth, if_neg hdepth]
        exact ih (Nat.not_lt.mp hsteps)

variable {F : Type} [DecidableEq F] [HostFunction F]

namespace Expr

open Counted

mutual

def countedEval (scope : Scope F) (limits : Limits) : Expr → Counted (Value F)
  | null => node limits (return .null)
  | bool b => node limits (return .bool b)
  | number x => node limits (return .number x)
  | string s => node limits (return .string s)
  | name s => node limits (lift (Scope.resolve scope s))
  | array items => node limits do
    return .array (← countedItems scope limits items)
  | object fields => node limits do
    return .object (← countedFields scope limits [] fields)
  | unary op operand => node limits do
    let v ← countedEval scope limits operand
    lift (op.apply v)
  | power base exponent => node limits do
    let a ← countedEval scope limits base
    let b ← countedEval scope limits exponent
    lift (a.power b)
  | chain first rest => node limits do
    let a ← countedEval scope limits first
    countedChain scope limits a rest
  | logical op operands => node limits do
    return .bool (← countedLogical scope limits (op = .or) operands)
  | conditional condition thenCase elseCase => node limits do
    let c ← countedEval scope limits condition
    if c.truthy then countedEval scope limits thenCase
    else countedEval scope limits elseCase
  | member owner property => node limits do
    let v ← countedEval scope limits owner
    lift (v.member property)
  | index owner key => node limits do
    let v ← countedEval scope limits owner
    let k ← countedEval scope limits key
    lift (v.index k)
  | call callee args => node limits do
    let v ← countedEval scope limits callee
    let f ← lift v.callee
    let vs ← countedItems scope limits args
    lift (f.apply vs)

def countedItems (scope : Scope F) (limits : Limits) : List Expr → Counted (List (Value F))
  | [] => return []
  | e :: es => do
    let v ← countedEval scope limits e
    let vs ← countedItems scope limits es
    return v :: vs

def countedFields (scope : Scope F) (limits : Limits) (seen : Dict (Value F)) :
    List (String × Expr) → Counted (Dict (Value F))
  | [] => return seen
  | (key, e) :: fields => do
    let v ← countedEval scope limits e
    countedFields scope limits (Dict.insert seen key v) fields

def countedChain (scope : Scope F) (limits : Limits) (a : Value F) :
    List (InfixOp × Expr) → Counted (Value F)
  | [] => return a
  | (op, e) :: rest => do
    let b ← countedEval scope limits e
    let c ← lift (op.apply a b)
    countedChain scope limits c rest

def countedLogical (scope : Scope F) (limits : Limits) (stop : Bool) :
    List Expr → Counted Bool
  | [] => return !stop
  | e :: es => do
    let v ← countedEval scope limits e
    if v.truthy = stop then return stop
    else countedLogical scope limits stop es

end

mutual

theorem tracks_countedEval (scope : Scope F) (limits : Limits) :
    ∀ e : Expr, Tracks (countedEval scope limits e) fun d => eval scope limits (d + 1) e
  | null | bool _ | number _ | string _ => by
    simp only [countedEval, eval]
    exact (tracks_pure _).node limits
  | name s => by
    simp only [countedEval, eval]
    exact (tracks_lift _).node limits
  | array items => by
    simp only [countedEval, eval]
    exact ((tracks_countedItems scope limits items).bind fun vs => tracks_pure _).node limits
  | object fields => by
    simp only [countedEval, eval]
    exact ((tracks_countedFields scope limits [] fields).bind fun d => tracks_pure _).node limits
  | unary op operand => by
    simp only [countedEval, eval]
    exact ((tracks_countedEval scope limits operand).bind fun v => tracks_lift _).node limits
  | power base exponent => by
    simp only [countedEval, eval]
    exact ((tracks_countedEval scope limits base).bind fun a =>
      (tracks_countedEval scope limits exponent).bind fun b => tracks_lift _).node limits
  | chain first rest => by
    simp only [countedEval, eval]
    exact ((tracks_countedEval scope limits first).bind fun a =>
      tracks_countedChain scope limits a rest).node limits
  | logical op operands => by
    simp only [countedEval, eval]
    exact ((tracks_countedLogical scope limits _ operands).bind fun b => tracks_pure _).node limits
  | conditional condition thenCase elseCase => by
    simp only [countedEval, eval]
    exact ((tracks_countedEval scope limits condition).bind fun c =>
      (tracks_countedEval scope limits thenCase).ite (tracks_countedEval scope limits elseCase)).node limits
  | member owner property => by
    simp only [countedEval, eval]
    exact ((tracks_countedEval scope limits owner).bind fun v => tracks_lift _).node limits
  | index owner key => by
    simp only [countedEval, eval]
    exact ((tracks_countedEval scope limits owner).bind fun v =>
      (tracks_countedEval scope limits key).bind fun k => tracks_lift _).node limits
  | call callee args => by
    simp only [countedEval, eval]
    exact ((tracks_countedEval scope limits callee).bind fun v => (tracks_lift _).bind fun f =>
      (tracks_countedItems scope limits args).bind fun vs => tracks_lift _).node limits

theorem tracks_countedItems (scope : Scope F) (limits : Limits) :
    ∀ es : List Expr,
      Tracks (countedItems scope limits es) fun d => evalItems scope limits (d + 1) es
  | [] => by
    simp only [countedItems, evalItems]
    exact tracks_pure _
  | e :: es => by
    simp only [countedItems, evalItems]
    exact (tracks_countedEval scope limits e).bind fun v =>
      (tracks_countedItems scope limits es).bind fun vs => tracks_pure _

theorem tracks_countedFields (scope : Scope F) (limits : Limits) (seen : Dict (Value F)) :
    ∀ fields : List (String × Expr),
      Tracks (countedFields scope limits seen fields) fun d =>
        evalFields scope limits (d + 1) seen fields
  | [] => by
    simp only [countedFields, evalFields]
    exact tracks_pure _
  | (key, e) :: fields => by
    simp only [countedFields, evalFields]
    exact (tracks_countedEval scope limits e).bind fun v =>
      tracks_countedFields scope limits (Dict.insert seen key v) fields

theorem tracks_countedChain (scope : Scope F) (limits : Limits) (a : Value F) :
    ∀ rest : List (InfixOp × Expr),
      Tracks (countedChain scope limits a rest) fun d => evalChain scope limits (d + 1) a rest
  | [] => by
    simp only [countedChain, evalChain]
    exact tracks_pure _
  | (op, e) :: rest => by
    simp only [countedChain, evalChain]
    exact (tracks_countedEval scope limits e).bind fun b => (tracks_lift _).bind fun c =>
      tracks_countedChain scope limits c rest

theorem tracks_countedLogical (scope : Scope F) (limits : Limits) (stop : Bool) :
    ∀ es : List Expr,
      Tracks (countedLogical scope limits stop es) fun d => evalLogical scope limits (d + 1) stop es
  | [] => by
    simp only [countedLogical, evalLogical]
    exact tracks_pure _
  | e :: es => by
    simp only [countedLogical, evalLogical]
    exact (tracks_countedEval scope limits e).bind fun v =>
      (tracks_pure _).ite (tracks_countedLogical scope limits stop es)

end

/-- The counters of an evaluator that has run the expressions one after the other. -/
def countersAfter (scope : Scope F) (limits : Limits) (es : List Expr) : Counters :=
  es.foldl (fun c e => (countedEval scope limits e c).2) ⟨0, 0⟩

theorem depth_countersAfter (scope : Scope F) (limits : Limits) (es : List Expr) :
    (countersAfter scope limits es).depth = 0 := by
  suffices h : ∀ c : Counters,
      (es.foldl (fun c e => (countedEval scope limits e c).2) c).depth = c.depth from h ⟨0, 0⟩
  induction es with
  | nil => exact fun _ => rfl
  | cons e es ih =>
    intro c
    rw [List.foldl_cons, ih, tracks_countedEval scope limits e c]

theorem evaluate_remaining (scope : Scope F) (limits : Limits) (e : Expr) (t : Nat) {left n : Nat}
    {outcome : Except EvalError (Value F)} (hleft : left = limits.maxSteps - t)
    (h : evaluate scope ⟨left, limits.maxDepth⟩ e 0 = (outcome, n)) :
    (n ≤ left → evaluate scope limits e t = (outcome, t + n)) ∧
    (left < n → outcome = .error (.stepLimit left) ∧
      evaluate scope limits e t = (.error (.stepLimit limits.maxSteps), t + n)) := by
  subst hleft
  have hwalk := (walk scope 1 e).within_remaining (Nat.zero_le (limits.maxSteps - t))
  rw [evaluate, eval_eq_walk] at h ⊢
  rwa [h] at hwalk

/-- Each run on an evaluator goes as it would on a new one that may count the steps that are left,
but for the number of steps that is reported as exceeded. It adds the steps that the new one
counts, and whatever came of it no level is in use afterwards. -/
theorem countedEval_after_runs (scope : Scope F) (limits : Limits) (before : List Expr)
    (e : Expr) :
    (∀ limits' steps, countedEval scope limits' e ⟨steps, 0⟩ =
      ((evaluate scope limits' e steps).1, ⟨(evaluate scope limits' e steps).2, 0⟩)) ∧
    ∃ t, countersAfter scope limits before = ⟨t, 0⟩ ∧
      ∃ outcome n,
        countedEval scope ⟨limits.maxSteps - min t limits.maxSteps, limits.maxDepth⟩ e ⟨0, 0⟩ =
          (outcome, ⟨n, 0⟩) ∧
        (n ≤ limits.maxSteps - min t limits.maxSteps →
          countedEval scope limits e ⟨t, 0⟩ = (outcome, ⟨t + n, 0⟩)) ∧
        (limits.maxSteps - min t limits.maxSteps < n →
          outcome = .error (.stepLimit (limits.maxSteps - min t limits.maxSteps)) ∧
          countedEval scope limits e ⟨t, 0⟩ =
            (.error (.stepLimit limits.maxSteps), ⟨t + n, 0⟩)) := by
  have hall : ∀ limits' steps, countedEval scope limits' e ⟨steps, 0⟩ =
      ((evaluate scope limits' e steps).1, ⟨(evaluate scope limits' e steps).2, 0⟩) :=
    fun limits' steps => tracks_countedEval scope limits' e ⟨steps, 0⟩
  obtain ⟨t, ht⟩ : ∃ t, t = (countersAfter scope limits before).steps := ⟨_, rfl⟩
  have hcounters : countersAfter scope limits before = ⟨t, 0⟩ := by
    rw [ht, ← depth_countersAfter scope limits before]
  have hleft : limits.maxSteps - min t limits.maxSteps = limits.maxSteps - t := by omega
  obtain ⟨outcome, n, hfresh⟩ : ∃ outcome n,
      evaluate scope ⟨limits.maxSteps - min t limits.maxSteps, limits.maxDepth⟩ e 0 =
        (outcome, n) := ⟨_, _, rfl⟩
  obtain ⟨hinside, houtside⟩ := evaluate_remaining scope limits e t hleft hfresh
  refine ⟨hall, t, hcounters, outcome, n, by rw [hall, hfresh], fun hle => ?_, fun hlt => ?_⟩
  · rw [hall, hinside hle]
  · obtain ⟨houtcome, hshared⟩ := houtside hlt
    exact ⟨houtcome, by rw [hall, hshared]⟩

end Expr
end TemplateBar.Template
