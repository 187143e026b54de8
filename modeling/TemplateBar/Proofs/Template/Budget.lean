import TemplateBar.Item.Function
import TemplateBar.Proofs.Template.Failure

/-!
# Budgets only cut off

An evaluation within budgets is either the whole walk or ends at the first node that a budget does
not allow, with the error of that budget: the step budget refuses the node after as many as it
allows, the depth budget the first one that nests too deep. At one node the steps come first.
-/
namespace TemplateBar.Template

variable {α : Type}

namespace Walk

theorem depth_le_iff {w : Walk α} {maxDepth : Nat} :
    w.depth ≤ maxDepth ↔ ∀ d ∈ w.visits, d ≤ maxDepth := by
  obtain ⟨outcome, visits⟩ := w
  simp only [depth]
  induction visits with
  | nil => simp
  | cons d visits ih => rw [List.foldr_cons, Nat.max_le, ih, List.forall_mem_cons]

theorem shallow_eq_steps_iff (w : Walk α) (maxDepth : Nat) :
    w.shallow maxDepth = w.steps ↔ w.depth ≤ maxDepth := by
  rw [depth_le_iff, shallow, steps, List.findIdx_eq_length]
  simp

theorem shallow_le_steps (w : Walk α) (maxDepth : Nat) : w.shallow maxDepth ≤ w.steps :=
  List.findIdx_le_length

theorem within_of_le {limits : Limits} {w : Walk α} {n : Nat} (hs : n + w.steps ≤ limits.maxSteps)
    (hd : w.depth ≤ limits.maxDepth) : w.within limits n = (w.outcome, n + w.steps) := by
  rw [depth_le_iff] at hd
  obtain ⟨outcome, visits⟩ := w
  induction visits generalizing n with
  | nil => rfl
  | cons d visits ih =>
    simp only [steps, List.length_cons] at hs
    have hsteps : ¬limits.maxSteps < n + 1 := by omega
    have hdepth : ¬limits.maxDepth < d := Nat.not_lt.mpr (hd d List.mem_cons_self)
    have hrest := ih (n := n + 1) (by simp only [steps]; omega)
      fun d' hd' => hd d' (List.mem_cons_of_mem _ hd')
    change Metered.charge limits d ((⟨outcome, visits⟩ : Walk α).within limits) n = _
    rw [Metered.charge, if_neg hsteps, if_neg hdepth, hrest]
    simp only [steps, List.length_cons]
    congr 1
    omega

/-- The step budget is used up before a node nests too deep. -/
theorem within_of_steps {limits : Limits} {w : Walk α} {n : Nat} (hn : n ≤ limits.maxSteps)
    (hs : limits.maxSteps < n + w.steps) (hd : limits.maxSteps ≤ n + w.shallow limits.maxDepth) :
    w.within limits n = (.error (.stepLimit limits.maxSteps), limits.maxSteps + 1) := by
  obtain ⟨outcome, visits⟩ := w
  induction visits generalizing n with
  | nil => simp [steps] at hs; omega
  | cons d visits ih =>
    change Metered.charge limits d ((⟨outcome, visits⟩ : Walk α).within limits) n = _
    -- Steps are counted before the depth is looked at, so they decide at a node that crosses both.
    by_cases hlast : limits.maxSteps < n + 1
    · rw [Metered.charge, if_pos hlast]
      have heq : n + 1 = limits.maxSteps + 1 := by omega
      rw [heq]
    · have hdepth : ¬limits.maxDepth < d := by
        intro hlt
        simp only [shallow, List.findIdx_cons, decide_eq_true hlt, cond_true] at hd
        omega
      rw [Metered.charge, if_neg hlast, if_neg hdepth]
      simp only [steps, List.length_cons] at hs
      simp only [shallow, List.findIdx_cons, decide_eq_false hdepth, cond_false] at hd
      exact ih (by omega) (by simp only [steps]; omega) (by simp only [shallow]; omega)

/-- A node nests too deep before the step budget is used up. -/
theorem within_of_depth {limits : Limits} {w : Walk α} {n : Nat}
    (hs : n + w.shallow limits.maxDepth < limits.maxSteps)
    (hd : w.shallow limits.maxDepth < w.steps) :
    w.within limits n =
      (.error (.depthLimit limits.maxDepth), n + w.shallow limits.maxDepth + 1) := by
  obtain ⟨outcome, visits⟩ := w
  induction visits generalizing n with
  | nil => simp [steps, shallow] at hd
  | cons d visits ih =>
    change Metered.charge limits d ((⟨outcome, visits⟩ : Walk α).within limits) n = _
    have hsteps : ¬limits.maxSteps < n + 1 := by omega
    rw [Metered.charge, if_neg hsteps]
    by_cases hdepth : limits.maxDepth < d
    · rw [if_pos hdepth]
      simp [shallow, List.findIdx_cons, hdepth]
    · simp only [shallow, List.findIdx_cons, decide_eq_false hdepth, cond_false] at hs hd ⊢
      simp only [steps, List.length_cons] at hd
      rw [if_neg hdepth, ih (by simp only [shallow]; omega) (by simp only [shallow, steps]; omega)]
      simp only [shallow]
      congr 1
      omega

/-- The budget that is crossed first cuts a walk off that is not within both. -/
theorem within_of_not_le {limits : Limits} {w : Walk α}
    (h : ¬(w.steps ≤ limits.maxSteps ∧ w.depth ≤ limits.maxDepth)) :
    w.within limits 0 =
      if limits.maxSteps ≤ w.shallow limits.maxDepth then
        (.error (.stepLimit limits.maxSteps), limits.maxSteps + 1)
      else (.error (.depthLimit limits.maxDepth), w.shallow limits.maxDepth + 1) := by
  have hle := w.shallow_le_steps limits.maxDepth
  have heq := w.shallow_eq_steps_iff limits.maxDepth
  split
  · rename_i hfirst
    have hlt : limits.maxSteps < w.steps := by
      refine Nat.lt_of_not_le fun hsteps => h ⟨hsteps, heq.mp (by omega)⟩
    exact within_of_steps (Nat.zero_le _) (by omega) (by omega)
  · rename_i hfirst
    have hlt : w.shallow limits.maxDepth < w.steps := by
      refine Nat.lt_of_le_of_ne hle fun hall => h ⟨by omega, heq.mp hall⟩
    rw [within_of_depth (by omega) hlt, Nat.zero_add]

end Walk

variable {F : Type} [DecidableEq F] [HostFunction F]

namespace Expr

open Walk

/-- For each expression and scope there is one walk, whatever the budgets: within them its outcome
comes out, otherwise the error of the budget that is crossed first, and larger budgets never change
an outcome that is not such an error. -/
theorem evaluate_within_budgets (hhost : HostsUnlimited F) (scope : Scope F) (e : Expr) :
    (∀ err, (walk scope 1 e).outcome = .error err → err.isLimit = false) ∧
    (∀ limits : Limits,
      ((walk scope 1 e).steps ≤ limits.maxSteps ∧ (walk scope 1 e).depth ≤ limits.maxDepth →
        evaluate scope limits e 0 = ((walk scope 1 e).outcome, (walk scope 1 e).steps)) ∧
      (¬((walk scope 1 e).steps ≤ limits.maxSteps ∧ (walk scope 1 e).depth ≤ limits.maxDepth) →
        evaluate scope limits e 0 =
          if limits.maxSteps ≤ (walk scope 1 e).shallow limits.maxDepth then
            (.error (.stepLimit limits.maxSteps), limits.maxSteps + 1)
          else
            (.error (.depthLimit limits.maxDepth),
              (walk scope 1 e).shallow limits.maxDepth + 1))) ∧
    ∀ limits limits' : Limits, limits.maxSteps ≤ limits'.maxSteps →
      limits.maxDepth ≤ limits'.maxDepth →
      (∀ err, (evaluate scope limits e 0).1 = .error err → err.isLimit = false) →
      evaluate scope limits' e 0 = evaluate scope limits e 0 := by
  generalize hw : walk scope 1 e = w
  have heval : ∀ limits, evaluate scope limits e = w.within limits := fun limits => by
    rw [evaluate, eval_eq_walk, hw]
  have hinside : ∀ limits : Limits, w.steps ≤ limits.maxSteps ∧ w.depth ≤ limits.maxDepth →
      evaluate scope limits e 0 = (w.outcome, w.steps) := by
    intro limits h
    rw [heval, within_of_le (by omega) h.2, Nat.zero_add]
  have houtside : ∀ limits : Limits, ¬(w.steps ≤ limits.maxSteps ∧ w.depth ≤ limits.maxDepth) →
      evaluate scope limits e 0 =
        if limits.maxSteps ≤ w.shallow limits.maxDepth then
          (.error (.stepLimit limits.maxSteps), limits.maxSteps + 1)
        else (.error (.depthLimit limits.maxDepth), w.shallow limits.maxDepth + 1) := by
    intro limits h
    rw [heval, within_of_not_le h]
  refine ⟨?_, fun limits => ⟨hinside limits, houtside limits⟩, ?_⟩
  · rw [← hw]
    exact isUnlimited_walk hhost scope 1 e
  · intro limits limits' hsteps hdepth hfine
    by_cases hin : w.steps ≤ limits.maxSteps ∧ w.depth ≤ limits.maxDepth
    · rw [hinside limits hin, hinside limits' ⟨by omega, by omega⟩]
    · rw [houtside limits hin] at hfine
      split at hfine
      · exact absurd (hfine _ rfl) (by simp [EvalError.isLimit])
      · exact absurd (hfine _ rfl) (by simp [EvalError.isLimit])

/-- A call visits three nodes, the callee and the argument two deep. -/
theorem evaluate_invoke_within_budgets :
    ∃ (scope : Scope ItemFunction) (e : Expr), HostsUnlimited ItemFunction ∧
      evaluate scope ⟨3, 2⟩ e 0 = (.ok (.effect "run" .null), 3) ∧
      evaluate scope ⟨2, 1⟩ e 0 = (.error (.depthLimit 1), 2) ∧
      evaluate scope ⟨1, 1⟩ e 0 = (.error (.stepLimit 1), 2) := by
  have hhost : HostsUnlimited ItemFunction := by
    intro f args
    cases f with
    | translate t => exact unlimited_ok _
    | invoke => exact unlimited_invokeEffect args
  obtain ⟨-, h, -⟩ := evaluate_within_budgets hhost [("invoke", .function (.host .invoke))]
    (call (name "invoke") [string "run"])
  exact ⟨_, _, hhost, (h ⟨3, 2⟩).1 ⟨by decide, by decide⟩, (h ⟨2, 1⟩).2 (by decide),
    (h ⟨1, 1⟩).2 (by decide)⟩

end Expr
end TemplateBar.Template
