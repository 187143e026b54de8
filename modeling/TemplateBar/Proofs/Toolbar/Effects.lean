import TemplateBar.Proofs.Template.EffectFree
import TemplateBar.Proofs.Toolbar.HostCalls

/-!
# Effects are not forged from data

As long as extra variables are documents, the only thing in an item's scope that makes effects is
the function `invoke` under its name. So an item whose click template does not mention that name
never hands an effect to the host, whatever its data look like.
-/
namespace TemplateBar

open Template

/-- The functions of an item's scope that make no effects. -/
def ItemFunction.IsSafe (f : ItemFunction) : Prop := f ≠ .invoke

theorem safeHosts_isSafe : SafeHosts ItemFunction.IsSafe := by
  intro f args v hf _ hv
  cases f with
  | translate t =>
    obtain rfl := Except.ok.inj hv
    exact .string _
  | invoke => exact absurd rfl hf

/-- Extra variables that come from documents. -/
def RenderTrigger.IsData : RenderTrigger → Prop
  | .varsChanged vars => ∀ e ∈ vars, ∃ j, e.2 = Value.ofJson j
  | _ => True

def ItemOp.IsData : ItemOp → Prop
  | .apply trigger => trigger.IsData
  | _ => True

def BarItemOp.IsData : BarItemOp → Prop
  | .apply trigger => trigger.IsData
  | _ => True

def BarOp.IsData : BarOp → Prop
  | .apply trigger => trigger.IsData
  | .item _ op => op.IsData
  | _ => True

/-- Entries that hold no effects, the one under `invoke` apart. -/
def HoldsData (scope : ItemScope) : Prop :=
  ∀ e ∈ scope, e.1 ≠ "invoke" → e.2.EffectFree ItemFunction.IsSafe

namespace HoldsData

variable {scope : ItemScope}

theorem insert (h : HoldsData scope) (key : String) {v : ItemValue}
    (hv : key ≠ "invoke" → v.EffectFree ItemFunction.IsSafe) :
    HoldsData (Dict.insert scope key v) := by
  intro e he hne
  rcases Dict.mem_insert he with rfl | he
  · exact hv hne
  · exact h e he hne

theorem overlay (h : HoldsData scope) {extra : Dict ItemValue}
    (he : ∀ e ∈ extra, e.2.EffectFree ItemFunction.IsSafe) :
    HoldsData (Dict.overlay scope extra) := by
  induction extra generalizing scope with
  | nil => exact h
  | cons e extra ih =>
    obtain ⟨hfirst, hrest⟩ := List.forall_mem_cons.mp he
    exact ih (h.insert e.1 fun _ => hfirst) hrest

theorem effectFreeBut (h : HoldsData scope) :
    Scope.EffectFreeBut ItemFunction.IsSafe scope "invoke" := by
  intro key v hv hne
  induction scope with
  | nil => cases hv
  | cons e rest ih =>
    obtain ⟨k, w⟩ := e
    simp only [Dict.get?] at hv
    split at hv
    · next hk =>
      subst hk
      obtain rfl := Option.some.inj hv
      exact h _ List.mem_cons_self hne
    · exact ih (fun e he => h e (List.mem_cons_of_mem _ he)) hv

end HoldsData

/-- Names and texts hold no effects. -/
theorem effectFree_strings (entries : List (String × String)) (f : String × String → String) :
    (Value.object (entries.map fun e => (e.1, .string (f e))) : ItemValue).EffectFree
      ItemFunction.IsSafe := by
  refine .object fun e he => ?_
  obtain ⟨e', -, rfl⟩ := List.mem_map.mp he
  exact .string _

theorem WindowSnapshot.effectFree_value (w : WindowSnapshot) :
    (w.value : ItemValue).EffectFree ItemFunction.IsSafe := by
  have hnone : ∀ e ∈ ([] : Dict ItemValue), e.2.EffectFree ItemFunction.IsSafe :=
    fun e he => by cases he
  have hfields := Value.effectFree_overlay hnone (Value.effectFree_ofFields w.extra)
  refine .object (Value.effectFree_insert ?_ (.string _) "title")
  exact Value.effectFree_insert hfields (.string _) "name"

namespace Item

/-- What an item has written, and what it would write next. -/
structure HasData (i : Item) : Prop where
  scope : HoldsData i.scope
  extraVars : ∀ e ∈ i.extraVars, e.2.EffectFree ItemFunction.IsSafe

variable {i : Item}

theorem HasData.refreshScope (h : i.HasData) : i.refreshScope.HasData where
  scope := by
    refine HoldsData.overlay ?_ h.extraVars
    refine (h.scope.insert "t" fun _ => .host ?_).insert "window" fun _ => ?_
    · exact ItemFunction.noConfusion
    · exact WindowSnapshot.effectFree_value _
  extraVars := h.extraVars

theorem HasData.seedScope (h : i.HasData) (icons : IconView) (surroundings : Dict String) :
    (i.seedScope icons surroundings).HasData where
  scope := by
    -- The one function that makes effects is written under the exempt name.
    refine ((h.scope.insert "icon" fun _ => ?_).insert "env" fun _ => ?_).insert "invoke" ?_
    · exact effectFree_strings icons.glyphs Prod.fst
    · exact effectFree_strings _ Prod.snd
    · exact fun hne => absurd rfl hne
  extraVars := h.extraVars

theorem HasData.store (h : i.HasData) {trigger : RenderTrigger} (ht : trigger.IsData) :
    (i.store trigger).HasData where
  scope := by
    rw [store_scope]
    exact h.scope
  extraVars := by
    cases trigger with
    | varsChanged vars =>
      intro e he
      obtain ⟨j, hj⟩ := ht e he
      rw [hj]
      exact Value.effectFree_ofJson j
    | _ => exact h.extraVars

theorem HasData.step (h : i.HasData) {op : ItemOp} (hop : op.IsData) : (i.step op).HasData := by
  cases op with
  | mount icons surroundings =>
    by_cases hu : i.state = .unmounted
    · rw [Item.step, mount_of_unmounted hu, mounted_eq]
      exact HasData.refreshScope ⟨(h.seedScope icons surroundings).scope, h.extraVars⟩
    · rw [Item.step, mount_of_ne_unmounted hu]
      exact h
  | unmount =>
    change i.unmount.1.HasData
    unfold Item.unmount
    split
    · exact h
    · exact ⟨h.scope, h.extraVars⟩
  | apply trigger =>
    rw [Item.step, apply_fst]
    split
    · exact (h.store hop).refreshScope
    · exact h.store hop
  | click =>
    rw [Item.step, click_fst]
    split
    · exact h.refreshScope
    · exact h
  | setActive active => exact ⟨h.scope, h.extraVars⟩
  | setEnvironment environment => exact ⟨h.scope, h.extraVars⟩

theorem HasData.run (h : i.HasData) {ops : List ItemOp} (hops : ∀ op ∈ ops, op.IsData) :
    (i.run ops).HasData := by
  induction ops generalizing i with
  | nil => exact h
  | cons op ops ih =>
    obtain ⟨hop, hrest⟩ := List.forall_mem_cons.mp hops
    exact ih (h.step hop) hrest

end Item

theorem effects_of_effectFree {v : ItemValue} (h : v.EffectFree ItemFunction.IsSafe) :
    effects v = [] := by
  cases h with
  | array h =>
    refine List.filterMap_eq_nil_iff.mpr fun v hv => ?_
    cases h v hv <;> rfl
  | _ => rfl

namespace Item

variable {i : Item}

/-- The click template mentions no function that makes effects. -/
def MentionsNoInvoke (i : Item) : Prop := ∀ t ∈ i.onClick, "invoke" ∉ t.expr.names

instance (i : Item) : Decidable i.MentionsNoInvoke :=
  inferInstanceAs (Decidable (∀ t ∈ i.onClick, "invoke" ∉ t.expr.names))

theorem HasData.effects_clickValue? (h : i.HasData) (hm : i.MentionsNoInvoke) {v : ItemValue}
    (hv : i.clickValue? = some v) : effects v = [] := by
  unfold clickValue? at hv
  split at hv
  · obtain ⟨t, ht, hv⟩ := Option.bind_eq_some_iff.mp hv
    have hok : t.evaluate i.scope i.context.limits = .ok v := by
      cases he : t.evaluate i.scope i.context.limits with
      | error e => simp [he, Except.toOption] at hv
      | ok w => simpa [he, Except.toOption] using hv
    exact effects_of_effectFree
      (Expr.effectFree_outcome safeHosts_isSafe h.scope.effectFreeBut (hm t ht) hok)
  · cases hv

theorem HasData.click_snd (h : i.HasData) (hc : i.Coherent) (hm : i.MentionsNoInvoke) :
    i.click.2 = [] := by
  by_cases ha : i.state = .active
  · have hcalls : clickCalls i.onClick i.scope i.context.limits = [] := by
      cases ht : i.onClick with
      | none => rfl
      | some t =>
        cases he : t.evaluate i.scope i.context.limits with
        | error e => simp [clickCalls, he]
        | ok v =>
          have hv : i.clickValue? = some v := by
            simp [clickValue?, ha, ht, he, Except.toOption]
          simp [clickCalls, he, h.effects_clickValue? hm hv]
    rw [hc.click_of_active ha, hcalls, tasksOf]
    split <;> rfl
  · simp [click, ha]

end Item

/-- A click of such an item asks for the brightness at most. -/
theorem BarItem.isQuery_click {b : BarItem} (h : b.item.HasData) (hc : b.item.Coherent)
    (hm : b.item.MentionsNoInvoke) {task : HostTask} (ht : task ∈ b.click.2) : task.IsQuery := by
  cases b with
  | generic i =>
    have hnone : i.click.2 = [] := Item.HasData.click_snd h hc hm
    change task ∈ i.click.2 at ht
    rw [hnone] at ht
    cases ht
  | settings s =>
    have hnone : s.item.click.2 = [] := Item.HasData.click_snd h hc hm
    change task ∈ s.click.2 at ht
    rw [s.click_snd, hnone, List.append_nil] at ht
    exact SettingsItem.isQuery_setOpen ht

theorem BarItem.hasData_act {b : BarItem} (h : b.item.HasData) (icons : IconView)
    {op : BarItemOp} (hop : op.IsData) : (b.act icons op).item.item.HasData := by
  rw [act_item]
  refine h.run fun o ho => ?_
  cases op with
  | apply trigger =>
    cases b with
    | generic i =>
      obtain rfl := List.mem_singleton.mp ho
      exact hop
    | settings s =>
      rcases List.mem_cons.mp ho with rfl | ho
      · trivial
      · obtain rfl := List.mem_singleton.mp ho
        exact hop
  | key name => cases ho
  | settings op => cases ho
  | _ =>
    obtain rfl := List.mem_singleton.mp ho
    trivial

namespace Session

variable {s : Session}

/-- An operation that brings no effects reaches no item with any. -/
theorem isData_reaching {op : BarOp} (hop : op.IsData) {b : BarItem} {o : BarItemOp}
    (h : op.reaching b = some o) : o.IsData := by
  cases op with
  | apply trigger =>
    obtain rfl := Option.some.inj h
    exact hop
  | item id op =>
    simp only [BarOp.reaching, Option.ite_none_right_eq_some, Option.some.injEq] at h
    obtain ⟨-, rfl⟩ := h
    exact hop
  | withEnvironment environment =>
    obtain rfl := Option.some.inj h
    trivial
  | mountAll surroundings =>
    simp only [BarOp.reaching, Option.ite_none_right_eq_some, Option.some.injEq] at h
    obtain ⟨-, rfl⟩ := h
    trivial
  | unmountAll =>
    simp only [BarOp.reaching, Option.ite_none_left_eq_some, Option.some.injEq] at h
    obtain ⟨-, rfl⟩ := h
    trivial
  | click id =>
    simp only [BarOp.reaching, Option.ite_none_right_eq_some, Option.some.injEq] at h
    obtain ⟨-, rfl⟩ := h
    trivial
  | key id name =>
    simp only [BarOp.reaching, Option.ite_none_right_eq_some, Option.some.injEq] at h
    obtain ⟨-, rfl⟩ := h
    trivial
  | _ => cases h

theorem hasData_step (hs : s.Sound) (h : ∀ b ∈ s.bar.items, b.item.HasData) {op : BarOp}
    (hop : op.IsData) : ∀ b ∈ (s.step op).bar.items, b.item.HasData := by
  intro b hb
  rcases mem_items_step hs hb with ⟨b', hb', hitem⟩ | ⟨definition, -, rfl⟩
  · rw [hitem]
    cases hr : op.reaching b' with
    | none => exact h b' hb'
    | some o => exact BarItem.hasData_act (h b' hb') s.icons (isData_reaching hop hr)
  · rw [BarItem.create_item]
    exact ⟨(fun e he => by cases he), fun e he => by cases he⟩

theorem hasData_run (hs : s.Sound) (h : ∀ b ∈ s.bar.items, b.item.HasData) {ops : List BarOp}
    (hops : ∀ op ∈ ops, op.IsData) : ∀ b ∈ (s.run ops).bar.items, b.item.HasData := by
  induction ops generalizing s with
  | nil => exact h
  | cons op ops ih =>
    obtain ⟨hop, hrest⟩ := List.forall_mem_cons.mp hops
    exact ih (hs.step op) (hasData_step hs h hop) hrest

end Session

/-- An expression that does not mention `invoke` yields no effect at any depth on a scope that holds
none elsewhere, nor a function that makes one. So on a bar whose extra variables and windows are
documents, whatever they say, a click on an item whose click template does not mention it hands no
effect to the host. -/
theorem effectFree_of_not_mem_names :
    (∀ {F : Type} [DecidableEq F] [HostFunction F] (safe : F → Prop), SafeHosts safe →
      ∀ (scope : Scope F) (limits : Limits) (e : Expr) (v : Value F),
        scope.EffectFreeBut safe "invoke" → "invoke" ∉ e.names →
        e.outcome scope limits = .ok v → v.EffectFree safe) ∧
    ∀ (context : ItemContext) (host : Host) (ops : List BarOp), (∀ op ∈ ops, op.IsData) →
      ∀ b ∈ ((Session.start context host).run ops).bar.items, b.item.MentionsNoInvoke →
        (∀ v, b.item.clickValue? = some v → effects v = []) ∧
        ∀ task ∈ b.click.2, task.IsQuery := by
  constructor
  · intro F _ _ safe hsafe scope limits e v hscope he hv
    exact Expr.effectFree_outcome hsafe hscope he hv
  · intro context host ops hops b hb hm
    have hs := Session.sound_start context host
    have hdata := Session.hasData_run hs (fun b hb => by cases hb) hops b hb
    have hcoherent := (hs.run ops).coherent b hb
    exact ⟨fun v hv => hdata.effects_clickValue? hm hv,
      fun task ht => BarItem.isQuery_click hdata hcoherent hm ht⟩

/-- A document that looks like an effect. -/
def forgedNote : Json := .object [("args", .null), ("invoke", .string "log_out")]

/-- An item whose click template gives that document back. -/
def forgingOps : List BarOp :=
  [.push { id := "a", template := "note", onClick := some "[note, note.invoke]" }, .mountAll [],
    .apply (.varsChanged [("note", .ofJson forgedNote)])]

theorem effectFree_forgedNote :
    (Expr.name "note").outcome [("note", Value.ofJson forgedNote)] {} =
      .ok (Value.ofJson forgedNote : ItemValue) ∧
    (Value.ofJson forgedNote).EffectFree ItemFunction.IsSafe ∧
    (∀ op ∈ forgingOps, op.IsData) ∧
    ∃ b ∈ ((Session.start ⟨[], {}, none, true⟩ ⟨none, none, []⟩).run forgingOps).bar.items,
      b.item.clickValue?.isSome ∧ b.item.MentionsNoInvoke ∧ ∀ task ∈ b.click.2, task.IsQuery := by
  obtain ⟨hvalue, hrun⟩ := effectFree_of_not_mem_names
  have hscope : Scope.EffectFreeBut ItemFunction.IsSafe [("note", Value.ofJson forgedNote)]
      "invoke" := by
    refine HoldsData.effectFreeBut fun e he _ => ?_
    obtain rfl := List.mem_singleton.mp he
    exact Value.effectFree_ofJson forgedNote
  have hops : ∀ op ∈ forgingOps, op.IsData := by
    simp [forgingOps, BarOp.IsData, RenderTrigger.IsData]
  have hbar : ∃ b ∈ ((Session.start ⟨[], {}, none, true⟩ ⟨none, none, []⟩).run
      forgingOps).bar.items, b.item.clickValue?.isSome ∧ b.item.MentionsNoInvoke := by
    decide +kernel
  obtain ⟨b, hb, hvalue?, hm⟩ := hbar
  have hname : (Expr.name "note").outcome [("note", Value.ofJson forgedNote)] {} =
      .ok (Value.ofJson forgedNote : ItemValue) := rfl
  have hfree := hvalue _ safeHosts_isSafe _ _ _ _ hscope (by decide) hname
  exact ⟨hname, hfree, hops, b, hb, hvalue?, hm, (hrun _ _ _ hops b hb hm).2⟩

end TemplateBar
