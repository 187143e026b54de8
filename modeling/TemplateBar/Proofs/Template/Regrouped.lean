import TemplateBar.Proofs.Template.Trace

/-!
# Runs and their nested forms

The operators of one level are kept as one flat run. Brackets around the front of a chain, or around
neighbouring operands of a logical run, make no difference to what comes out and add a visit to the
bracketed node at most. A logical run is the nest of conditionals that it stands for.
-/
namespace TemplateBar.Template

variable {F : Type} {α β : Type}

/-- The conditionals that a logical run stands for; each yields a truth value. -/
def LogicalOp.nest : LogicalOp → List Expr → Expr
  | op, [] => .bool (op = .and)
  | .and, e :: es => .conditional e (nest .and es) (.bool false)
  | .or, e :: es => .conditional e (.bool true) (nest .or es)

example (a b : Expr) : LogicalOp.nest .and [a, b] =
    .conditional a (.conditional b (.bool true) (.bool false)) (.bool false) := rfl

namespace Trace

theorem outcome_bind_congr (t : Trace α) {f g : α → Trace β}
    (h : ∀ a, (f a).outcome = (g a).outcome) : (t >>= f).outcome = (t >>= g).outcome := by
  obtain ⟨outcome, visits⟩ := t
  cases outcome with
  | error err => rfl
  | ok a => exact h a

/-- The second trace comes to the same over the same visits, but perhaps for one more to a node. -/
structure AddsVisit (e : Expr) (t t' : Trace α) : Prop where
  outcome : t'.outcome = t.outcome
  visits : t'.visits = t.visits ∨
    ∃ early late, t.visits = early ++ late ∧ t'.visits = early ++ e :: late

variable {e : Expr}

theorem AddsVisit.refl (t : Trace α) : AddsVisit e t t := ⟨rfl, Or.inl rfl⟩

theorem addsVisit_visit (t : Trace α) : AddsVisit e t (visit e t) :=
  ⟨rfl, Or.inr ⟨[], t.visits, rfl, rfl⟩⟩

theorem AddsVisit.bind_right {t t' : Trace α} (h : AddsVisit e t t') (f : α → Trace β) :
    AddsVisit e (t >>= f) (t' >>= f) := by
  obtain ⟨outcome, visits⟩ := t
  obtain ⟨outcome', visits'⟩ := t'
  obtain ⟨houtcome, hvisits⟩ := h
  obtain rfl : outcome' = outcome := houtcome
  cases outcome' with
  | error err => exact ⟨rfl, hvisits⟩
  | ok a =>
    refine ⟨rfl, ?_⟩
    rcases hvisits with hsame | ⟨early, late, hbefore, hafter⟩
    · exact Or.inl (congrArg (· ++ (f a).visits) hsame)
    · refine Or.inr ⟨early, late ++ (f a).visits, ?_, ?_⟩
      · exact (congrArg (· ++ (f a).visits) hbefore).trans (List.append_assoc ..)
      · exact (congrArg (· ++ (f a).visits) hafter).trans (List.append_assoc ..)

theorem AddsVisit.bind_left (t : Trace α) {f g : α → Trace β}
    (h : ∀ a, AddsVisit e (f a) (g a)) : AddsVisit e (t >>= f) (t >>= g) := by
  obtain ⟨outcome, visits⟩ := t
  cases outcome with
  | error err => exact .refl _
  | ok a =>
    obtain ⟨houtcome, hvisits⟩ := h a
    refine ⟨houtcome, ?_⟩
    rcases hvisits with hsame | ⟨early, late, hbefore, hafter⟩
    · exact Or.inl (congrArg (visits ++ ·) hsame)
    · refine Or.inr ⟨visits ++ early, late, ?_, ?_⟩
      · exact (congrArg (visits ++ ·) hbefore).trans (List.append_assoc ..).symm
      · exact (congrArg (visits ++ ·) hafter).trans (List.append_assoc ..).symm

theorem AddsVisit.ite {p : Prop} [Decidable p] {t t' u u' : Trace α} (h : AddsVisit e t t')
    (h' : AddsVisit e u u') : AddsVisit e (if p then t else u) (if p then t' else u') := by
  split
  · exact h
  · exact h'

end Trace

variable [DecidableEq F] [HostFunction F]

namespace Expr

open Trace

variable (scope : Scope F)

/-- Where the budgets suffice for both, the same comes out. -/
def SameOutcome (e e' : Expr) : Prop :=
  ∀ limits : Limits, limits.Suffice scope e → limits.Suffice scope e' →
    outcome scope limits e = outcome scope limits e'

/-- Below the node itself, the second expression visits what the first one does, and the node of the
group if it gets there. -/
def RegroupsVisits (group flat nested : Expr) : Prop :=
  ∃ below below', (trace scope flat).visits = flat :: below ∧
    (trace scope nested).visits = nested :: below' ∧
    (below' = below ∨ ∃ early late, below = early ++ late ∧ below' = early ++ group :: late)

variable {scope}

theorem sameOutcome_of_trace {e e' : Expr} (h : (trace scope e).outcome = (trace scope e').outcome) :
    SameOutcome scope e e' := by
  intro limits he he'
  rw [outcome_of_suffice he, outcome_of_suffice he', h]

section

variable {group flat nested : Expr} {t t' : Trace (Value F)}
  (hflat : trace scope flat = visit flat t) (hnested : trace scope nested = visit nested t')
  (h : AddsVisit group t t')

include hflat hnested h

theorem sameOutcome_of_addsVisit : SameOutcome scope flat nested := by
  refine sameOutcome_of_trace ?_
  rw [hflat, hnested]
  exact h.outcome.symm

theorem regroupsVisits_of_addsVisit : RegroupsVisits scope group flat nested := by
  refine ⟨t.visits, t'.visits, ?_, ?_, h.visits⟩
  · rw [hflat]
    rfl
  · rw [hnested]
    rfl

end

variable (scope)

theorem traceChain_append (a : Value F) (rest rest' : List (InfixOp × Expr)) :
    traceChain scope a (rest ++ rest') =
      traceChain scope a rest >>= fun b => traceChain scope b rest' := by
  induction rest generalizing a with
  | nil => rw [traceChain, Trace.pure_bind, List.nil_append]
  | cons link rest ih =>
    obtain ⟨op, e⟩ := link
    simp only [List.cons_append, traceChain, Trace.bind_assoc, ih]

theorem trace_chain_append (first : Expr) (rest rest' : List (InfixOp × Expr)) :
    ∃ t : Trace (Value F),
      trace scope (chain first (rest ++ rest')) = visit (chain first (rest ++ rest')) t ∧
      trace scope (chain (chain first rest) rest') =
        visit (chain (chain first rest) rest') (visit (chain first rest) t) := by
  refine ⟨trace scope first >>= fun a => traceChain scope a (rest ++ rest'), by rw [trace], ?_⟩
  rw [trace, trace, visit_bind, Trace.bind_assoc]
  simp only [traceChain_append]

theorem trace_logical (op : LogicalOp) (operands : List Expr) :
    trace scope (logical op operands) = visit (logical op operands)
      (traceLogical scope (op = .or) operands >>= fun b => return .bool b) := by
  rw [trace]

theorem traceLogical_append (stop : Bool) (es es' : List Expr) :
    traceLogical scope stop (es ++ es') = traceLogical scope stop es >>= fun b =>
      if b = stop then return stop else traceLogical scope stop es' := by
  induction es with
  | nil => cases stop <;> rw [traceLogical, Trace.pure_bind] <;> rfl
  | cons e es ih =>
    simp only [List.cons_append, traceLogical, Trace.bind_assoc, Trace.ite_bind, Trace.pure_bind, ih,
      if_true]

/-- The group's own run decides what the rest of the run would have decided after it. -/
theorem traceLogical_group (op : LogicalOp) (group after : List Expr) :
    traceLogical scope (op = .or) (logical op group :: after) =
      visit (logical op group) (traceLogical scope (op = .or) (group ++ after)) := by
  rw [traceLogical_append, traceLogical, trace, visit_bind, Trace.bind_assoc]
  rfl

theorem addsVisit_traceLogical (op : LogicalOp) (before group after : List Expr) :
    AddsVisit (logical op group)
      (traceLogical scope (op = .or) (before ++ group ++ after))
      (traceLogical scope (op = .or) (before ++ logical op group :: after)) := by
  rw [List.append_assoc, traceLogical_append scope _ before, traceLogical_append scope _ before,
    traceLogical_group]
  exact .bind_left _ fun b => (AddsVisit.refl _).ite (addsVisit_visit _)

theorem outcome_nest (op : LogicalOp) (es : List Expr) :
    (trace scope (op.nest es)).outcome =
      (traceLogical scope (op = .or) es >>= fun b => return .bool b).outcome := by
  induction es with
  | nil =>
    rw [LogicalOp.nest, trace, traceLogical]
    cases op <;> rfl
  | cons e es ih =>
    cases op with
    | and =>
      rw [LogicalOp.nest, trace, traceLogical, Trace.bind_assoc]
      refine outcome_bind_congr _ fun v => ?_
      cases v.truthy with
      | true => exact ih
      | false => rfl
    | or =>
      rw [LogicalOp.nest, trace, traceLogical, Trace.bind_assoc]
      refine outcome_bind_congr _ fun v => ?_
      cases v.truthy with
      | true => rfl
      | false => exact ih

/-- A chain comes to what it comes to with its front in brackets, and a logical run to what it comes
to with neighbouring operands in brackets: the same value or the same error, over the same nodes
below but for the bracketed one. A logical run comes to what its nest of conditionals comes to. -/
theorem outcome_regrouped :
    (∀ (first : Expr) (rest rest' : List (InfixOp × Expr)),
      SameOutcome scope (chain first (rest ++ rest')) (chain (chain first rest) rest') ∧
      RegroupsVisits scope (chain first rest) (chain first (rest ++ rest'))
        (chain (chain first rest) rest')) ∧
    (∀ (op : LogicalOp) (before group after : List Expr),
      SameOutcome scope (logical op (before ++ group ++ after))
        (logical op (before ++ logical op group :: after)) ∧
      RegroupsVisits scope (logical op group) (logical op (before ++ group ++ after))
        (logical op (before ++ logical op group :: after))) ∧
    ∀ (op : LogicalOp) (operands : List Expr),
      SameOutcome scope (logical op operands) (op.nest operands) := by
  refine ⟨fun first rest rest' => ?_, fun op before group after => ?_, fun op operands => ?_⟩
  · obtain ⟨t, hflat, hnested⟩ := trace_chain_append scope first rest rest'
    exact ⟨sameOutcome_of_addsVisit hflat hnested (addsVisit_visit t),
      regroupsVisits_of_addsVisit hflat hnested (addsVisit_visit t)⟩
  · have hflat := trace_logical scope op (before ++ group ++ after)
    have hnested := trace_logical scope op (before ++ logical op group :: after)
    have h := (addsVisit_traceLogical scope op before group after).bind_right
      fun b => (return .bool b : Trace (Value F))
    exact ⟨sameOutcome_of_addsVisit hflat hnested h, regroupsVisits_of_addsVisit hflat hnested h⟩
  · refine sameOutcome_of_trace ?_
    rw [outcome_nest, trace]
    rfl

/-- Brackets do not bring the operands behind a false one into play, and neither do conditionals. -/
theorem outcome_regrouped_false :
    let flat : Expr := .logical .and [.bool true, .bool false, .name "gone", .name "lost"]
    let nested : Expr :=
      .logical .and [.bool true, .logical .and [.bool false, .name "gone"], .name "lost"]
    let nest := LogicalOp.nest .and [.bool true, .bool false, .name "gone", .name "lost"]
    outcome ([] : Scope ItemFunction) {} flat = .ok (.bool false) ∧
    outcome ([] : Scope ItemFunction) {} nested = .ok (.bool false) ∧
    outcome ([] : Scope ItemFunction) {} nest = .ok (.bool false) := by
  intro flat nested nest
  obtain ⟨-, hgroup, hnest⟩ := outcome_regrouped ([] : Scope ItemFunction)
  have hflat : outcome ([] : Scope ItemFunction) {} flat = .ok (.bool false) := rfl
  have hsuffice : Limits.Suffice {} ([] : Scope ItemFunction) flat := ⟨by decide, by decide⟩
  obtain ⟨hnested, -⟩ := hgroup .and [.bool true] [.bool false, .name "gone"] [.name "lost"]
  exact ⟨hflat, (hnested {} hsuffice ⟨by decide, by decide⟩).symm.trans hflat,
    (hnest .and _ {} hsuffice ⟨by decide, by decide⟩).symm.trans hflat⟩

end Expr
end TemplateBar.Template
