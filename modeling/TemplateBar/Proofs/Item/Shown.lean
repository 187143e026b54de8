import TemplateBar.Proofs.Item.Coherent
import TemplateBar.Proofs.Item.Scope
import TemplateBar.Proofs.Toolbar.Items

/-!
# What an item shows

An active item shows something exactly if its content template gives a value that is not the empty
text, and it has a tooltip exactly if its tooltip template gives a value with nodes. A template's
value depends on its own source, the scope and the limits, and no template writes to the scope, so
what one of them shows is the same whatever the others are.
-/
namespace TemplateBar

/-! ## Values without nodes -/

namespace Decimal

theorem digitsOfNat_ne_nil (n : Nat) : digitsOfNat n ≠ [] := Nat.toDigits_ne_nil

theorem plainDigits_ne_nil (d : Decimal) : plainDigits d ≠ [] := by
  unfold plainDigits
  dsimp only
  split
  · simp [digitsOfNat_ne_nil]
  · split <;> simp

theorem digitsOfInt_ne_nil (i : Int) : digitsOfInt i ≠ [] := by
  unfold digitsOfInt
  split
  · simp
  · exact digitsOfNat_ne_nil _

theorem scientificChars_ne_nil (x : Float) : scientificChars x ≠ [] := by
  unfold scientificChars
  dsimp only
  split
  · simp
  · refine List.append_ne_nil_of_right_ne_nil _ ?_
    split
    · exact List.append_ne_nil_of_left_ne_nil (plainDigits_ne_nil _) _
    · simp

end Decimal

/-- No document is written as nothing. -/
theorem Json.chars_ne_nil (j : Json) : j.chars ≠ [] := by
  cases j with
  | null => simp [chars]
  | bool b => cases b <;> simp [chars]
  | int i => simpa [chars] using Decimal.digitsOfInt_ne_nil i
  | float x =>
    simp only [chars, floatChars]
    split
    · exact Decimal.scientificChars_ne_nil x
    · simp
  | string s => simp [chars, stringChars]
  | array items => cases items <;> simp [chars]
  | object fields => cases fields <;> simp [chars]

theorem Template.Value.canonical_eq_empty_iff {F : Type} (v : Template.Value F) :
    v.canonical = "" ↔ v = .string "" := by
  have written (j : Json) : j.text ≠ "" := by
    intro h
    exact j.chars_ne_nil (by simpa [Json.text] using congrArg String.toList h)
  cases v <;> simp [canonical, written]

namespace IconView

theorem textToken_eq_nil_iff {collected : List Char} :
    textToken collected = [] ↔ collected = [] := by
  cases collected <;> simp [textToken]

theorem tokensFrom_eq_nil_iff (names : List (List Char)) (fuel : Nat) (before : Option Char)
    (collected cs : List Char) :
    tokensFrom names fuel before collected cs = [] ↔ collected = [] ∧ cs = [] := by
  induction fuel generalizing before collected cs with
  | zero => simp [tokensFrom, textToken_eq_nil_iff, and_comm]
  | succ fuel ih =>
    cases cs with
    | nil => simp [tokensFrom, textToken_eq_nil_iff]
    | cons c cs =>
      rw [tokensFrom]
      split
      · simp
      · simp [ih]

/-- A value has no nodes exactly if its text is empty, whatever the names. -/
theorem nodes_eq_nil_iff {F : Type} (icons : IconView) (v : Template.Value F) :
    icons.nodes v = [] ↔ v.canonical = "" := by
  simp [nodes, split, splitText, tokensFrom_eq_nil_iff]

end IconView

/-! ## Values of sources -/

/-- A source that is not blank, compiles to at most `depth` levels and evaluates to a value. -/
structure Gives (depth : Nat) (limits : Template.Limits) (scope : ItemScope) (source : String)
    (v : ItemValue) : Prop where
  visible : Text.isAllBlank source = false
  evaluates : ∃ t, CompiledTemplate.compile source depth = .ok t ∧ t.evaluate scope limits = .ok v

namespace Item

variable {i : Item}

/-- The nodes of a source are those of its value, or there are none. -/
theorem templateNodes_compileSource_iff {depth : Nat} {source : Option String} {icons : IconView}
    {ns : List Node} (hne : ns ≠ []) :
    i.templateNodes (compileSource (.empty depth) source).1 icons = ns ↔
      ∃ s ∈ source, ∃ v, Gives depth i.context.limits i.scope s v ∧ icons.nodes v = ns := by
  cases source with
  | none => simp [compileSource, templateNodes, hne.symm]
  | some s =>
    simp only [Option.mem_def, Option.some.injEq, exists_eq_left']
    cases blank : Text.isAllBlank s with
    | true =>
      simp only [compileSource, blank, if_true, templateNodes]
      refine iff_of_false hne.symm ?_
      rintro ⟨v, gives, -⟩
      exact Bool.noConfusion (blank.symm.trans gives.visible)
    | false =>
      have compiled : (compileSource (.empty depth) (some s)).1 =
          (CompiledTemplate.compile s depth).toOption := by
        rw [compileSource, if_neg (by simp [blank])]
        rfl
      rw [compiled]
      constructor
      · intro nodes
        cases compile : CompiledTemplate.compile s depth with
        | error e => exact absurd nodes.symm (by simpa [compile, Except.toOption, templateNodes])
        | ok t =>
          simp only [compile, Except.toOption, templateNodes] at nodes
          split at nodes
          · next v evaluated => exact ⟨v, ⟨blank, t, compile, evaluated⟩, nodes⟩
          · exact absurd nodes.symm hne
      · rintro ⟨v, ⟨-, t, compile, evaluated⟩, nodes⟩
        simp [compile, Except.toOption, templateNodes, evaluated, nodes]

/-! ## Items that differ in their templates -/

/-- The item with the definition and the templates of another one. -/
def rebuilt (i j : Item) : Item :=
  { i with
    definition := j.definition
    content := j.content
    tooltip := j.tooltip
    onClick := j.onClick }

section

variable (i j : Item)

theorem store_rebuilt (trigger : RenderTrigger) :
    (i.rebuilt j).store trigger = (i.store trigger).rebuilt j := by
  cases trigger <;> rfl

theorem step_rebuilt (op : ItemOp) : (i.rebuilt j).step op = (i.step op).rebuilt j := by
  have same : (i.rebuilt j).state = i.state := rfl
  cases op with
  | mount icons surroundings =>
    by_cases h : i.state = .unmounted
    · rw [step, step, mount_of_unmounted h, mount_of_unmounted (i := i.rebuilt j) h]
      rfl
    · rw [step, step, mount_of_ne_unmounted h, mount_of_ne_unmounted (i := i.rebuilt j) h]
  | unmount =>
    change (i.rebuilt j).unmount.1 = i.unmount.1.rebuilt j
    have lifecycle : (i.rebuilt j).lifecycle = i.lifecycle := rfl
    unfold unmount
    rw [lifecycle]
    cases i.lifecycle.transition .unmounted <;> rfl
  | apply trigger =>
    rw [step, step, apply_fst, apply_fst, same, store_rebuilt]
    split <;> rfl
  | click =>
    rw [step, step, click_fst, click_fst, same]
    split <;> rfl
  | setActive active => rfl
  | setEnvironment environment => rfl

theorem run_rebuilt (ops : List ItemOp) : (i.rebuilt j).run ops = (i.run ops).rebuilt j := by
  induction ops generalizing i with
  | nil => rfl
  | cons op ops ih => exact (congrArg (run · ops) (step_rebuilt i j op)).trans (ih (i.step op))

end

/-! ## New items -/

section

variable (definition : ModuleDefinition) (context : ItemContext) {cache : TemplateCache}
  (faithful : cache.Faithful) (clicks keys : Bool)
include faithful

theorem content_fresh_eq : (fresh definition context cache clicks keys).content =
    (compileSource (.empty cache.maxDepth) (some definition.template)).1 :=
  compileSource_fst faithful (some definition.template)

theorem tooltip_fresh_eq : (fresh definition context cache clicks keys).tooltip =
    (compileSource (.empty cache.maxDepth) definition.tooltip).1 := by
  obtain ⟨faithful', depth⟩ := compileSource_snd faithful (some definition.template)
  exact depth ▸ compileSource_fst faithful' definition.tooltip

end

theorem tooltip_run (i : Item) (ops : List ItemOp) : (i.run ops).tooltip = i.tooltip := by
  change (i.run ops).setup.tooltip = i.setup.tooltip
  rw [run_setup]

/-! ## Views -/

theorem view_eq_some {icons : IconView} {v : ItemView} (h : i.view icons = some v) :
    v.content = i.templateNodes i.content icons ∧ v.content ≠ [] ∧
      v.tooltip = if (i.templateNodes i.tooltip icons).isEmpty then none
        else some (i.templateNodes i.tooltip icons) := by
  unfold view at h
  dsimp only at h
  split at h
  · cases h
  · next visible =>
    obtain rfl := Option.some.inj h
    exact ⟨rfl, by simpa using visible, rfl⟩

theorem apply_snd_eq_some_iff {trigger : RenderTrigger} {v : ItemView} :
    (i.apply trigger).2 = some v ↔ i.state = .active ∧
      ∃ icons, i.icons = some icons ∧ (i.store trigger).refreshScope.view icons = some v := by
  unfold apply render
  rw [store_state]
  split
  · next active =>
    change (i.store trigger).icons.bind (i.store trigger).refreshScope.view = some v ↔ _
    rw [store_icons, Option.bind_eq_some_iff]
    simp only [active, true_and]
  · next inactive => simp [inactive]

section

variable (i : Item) (trigger : RenderTrigger)

theorem setup_rendered : (i.store trigger).refreshScope.setup = i.setup := by
  rw [setup_refreshScope, setup_store]

theorem content_rendered : (i.store trigger).refreshScope.content = i.content :=
  congrArg (·.content) (setup_rendered i trigger)

theorem tooltip_rendered : (i.store trigger).refreshScope.tooltip = i.tooltip :=
  congrArg (·.tooltip) (setup_rendered i trigger)

theorem limits_rendered : (i.store trigger).refreshScope.context.limits = i.context.limits :=
  congrArg (·.context.limits) (setup_rendered i trigger)

end

/-- The scope that a render evaluates on. -/
def renderScope (i : Item) (trigger : RenderTrigger) : ItemScope :=
  (i.store trigger).refreshScope.scope

/-- What operations keep of an item that was made from a definition. -/
structure Made (definition : ModuleDefinition) (context : ItemContext) (depth : Nat) (i : Item) :
    Prop where
  content : i.content = (compileSource (.empty depth) (some definition.template)).1
  tooltip : i.tooltip = (compileSource (.empty depth) definition.tooltip).1
  limits : i.context.limits = context.limits
  captured : i.Captured

theorem made_fresh_run {definition : ModuleDefinition} {context : ItemContext}
    {cache : TemplateCache} (faithful : cache.Faithful) (clicks keys : Bool) (ops : List ItemOp) :
    Made definition context cache.maxDepth ((fresh definition context cache clicks keys).run ops)
    where
  content := by rw [content_run, content_fresh_eq definition context faithful clicks keys]
  tooltip := by rw [tooltip_run, tooltip_fresh_eq definition context faithful clicks keys]
  limits := limits_run _ ops
  captured := (captured_of_initial rfl rfl).run (coherent_of_initial rfl rfl) ops

namespace Made

variable {definition : ModuleDefinition} {context : ItemContext} {depth : Nat}

section

variable (h : Made definition context depth i) (trigger : RenderTrigger) {icons : IconView}
  {ns : List Node} (hne : ns ≠ [])
include h hne

/-- A compiled source gives nodes to a render as to the context that the item was made for. -/
theorem templateNodes_iff (source : Option String) :
    (i.store trigger).refreshScope.templateNodes
        (compileSource (.empty depth) source).1 icons = ns ↔
      ∃ s ∈ source, ∃ v, Gives depth context.limits (i.renderScope trigger) s v ∧
        icons.nodes v = ns := by
  rw [templateNodes_compileSource_iff hne, limits_rendered, h.limits]
  rfl

theorem content_nodes_iff :
    (i.store trigger).refreshScope.templateNodes (i.store trigger).refreshScope.content icons = ns ↔
      ∃ v, Gives depth context.limits (i.renderScope trigger) definition.template v ∧
        icons.nodes v = ns := by
  rw [content_rendered, h.content, h.templateNodes_iff trigger hne]
  simp

theorem tooltip_nodes_iff :
    (i.store trigger).refreshScope.templateNodes (i.store trigger).refreshScope.tooltip icons = ns ↔
      ∃ s ∈ definition.tooltip, ∃ v, Gives depth context.limits (i.renderScope trigger) s v ∧
        icons.nodes v = ns := by
  rw [tooltip_rendered, h.tooltip]
  exact h.templateNodes_iff trigger hne definition.tooltip

end

variable (h : Made definition context depth i) (trigger : RenderTrigger)
include h

/-- Something is shown exactly if the content template gives anything but the empty text. -/
theorem apply_isSome_iff : (i.apply trigger).2.isSome = true ↔ i.state = .active ∧
    ∃ v, Gives depth context.limits (i.renderScope trigger) definition.template v ∧
      v.canonical ≠ "" := by
  constructor
  · intro shown
    obtain ⟨view, hview⟩ := Option.isSome_iff_exists.mp shown
    obtain ⟨active, icons, -, hview⟩ := apply_snd_eq_some_iff.mp hview
    obtain ⟨content, visible, -⟩ := view_eq_some hview
    obtain ⟨v, gives, nodes⟩ := (h.content_nodes_iff trigger visible).mp content.symm
    refine ⟨active, v, gives, fun empty => visible ?_⟩
    rw [← nodes, (icons.nodes_eq_nil_iff v).mpr empty]
  · rintro ⟨active, v, gives, visible⟩
    obtain ⟨icons, hicons⟩ := Option.isSome_iff_exists.mp (h.captured.mpr active)
    have nonempty : icons.nodes v ≠ [] := fun nil => visible ((icons.nodes_eq_nil_iff v).mp nil)
    have nodes := (h.content_nodes_iff trigger nonempty).mpr ⟨v, gives, rfl⟩
    cases hview : (i.store trigger).refreshScope.view icons with
    | some view =>
      have shown := apply_snd_eq_some_iff.mpr ⟨active, icons, hicons, hview⟩
      exact Option.isSome_iff_exists.mpr ⟨view, shown⟩
    | none =>
      simp [view, nodes, nonempty] at hview

/-- The nodes of what is shown are those of the values that the templates give. -/
theorem of_apply_eq_some {view : ItemView} (shown : (i.apply trigger).2 = some view) :
    ∃ icons, i.icons = some icons ∧
      (∃ v, Gives depth context.limits (i.renderScope trigger) definition.template v ∧
        view.content = icons.nodes v) ∧
      ∀ ns, view.tooltip = some ns ↔ ns ≠ [] ∧ ∃ s ∈ definition.tooltip, ∃ v,
        Gives depth context.limits (i.renderScope trigger) s v ∧ icons.nodes v = ns := by
  obtain ⟨-, icons, hicons, hview⟩ := apply_snd_eq_some_iff.mp shown
  obtain ⟨content, visible, tooltip⟩ := view_eq_some hview
  obtain ⟨v, gives, nodes⟩ := (h.content_nodes_iff trigger visible).mp content.symm
  refine ⟨icons, hicons, ⟨v, gives, nodes.symm⟩, fun ns => ?_⟩
  rw [tooltip]
  constructor
  · intro some_ns
    split at some_ns
    · cases some_ns
    · next nonempty =>
      obtain rfl := Option.some.inj some_ns
      have hne := by simpa using nonempty
      exact ⟨hne, (h.tooltip_nodes_iff trigger hne).mp rfl⟩
  · rintro ⟨hne, gives⟩
    rw [(h.tooltip_nodes_iff trigger hne).mpr gives]
    simp [hne]

end Made

/-! ## The same item with other templates -/

section

variable (i j : Item) (trigger : RenderTrigger)

theorem refreshScope_store_rebuilt : ((i.rebuilt j).store trigger).refreshScope =
    ((i.store trigger).refreshScope).rebuilt j := by
  rw [store_rebuilt]
  rfl

theorem map_content_apply : (i.apply trigger).2.map (·.content) =
    if i.state = .active then
      i.icons.bind fun icons => ((i.store trigger).refreshScope.view icons).map (·.content)
    else none := by
  unfold apply render
  rw [store_state]
  split
  · change ((i.store trigger).icons.bind _).map _ = _
    rw [store_icons, Option.map_bind]
    rfl
  · rfl

/-- The content does not depend on the other templates. -/
theorem map_content_apply_rebuilt (same : j.content = i.content) :
    ((i.rebuilt j).apply trigger).2.map (·.content) = (i.apply trigger).2.map (·.content) := by
  have view (icons : IconView) :
      (((i.rebuilt j).store trigger).refreshScope.view icons).map (·.content) =
        ((i.store trigger).refreshScope.view icons).map (·.content) := by
    rw [refreshScope_store_rebuilt, map_content_view, map_content_view, content_rendered,
      ← same]
    rfl
  rw [map_content_apply, map_content_apply]
  simp only [view]
  rfl

/-- The tooltip does not depend on the other templates, where something is shown. -/
theorem tooltip_apply_rebuilt (same : j.tooltip = i.tooltip) {view view' : ItemView}
    (shown : (i.apply trigger).2 = some view)
    (shown' : ((i.rebuilt j).apply trigger).2 = some view') : view'.tooltip = view.tooltip := by
  obtain ⟨-, icons, hicons, hview⟩ := apply_snd_eq_some_iff.mp shown
  obtain ⟨-, icons', hicons', hview'⟩ := apply_snd_eq_some_iff.mp shown'
  have kept : (i.rebuilt j).icons = i.icons := rfl
  obtain rfl : icons' = icons := Option.some.inj (hicons'.symm.trans (kept.trans hicons))
  rw [refreshScope_store_rebuilt] at hview'
  rw [(view_eq_some hview).2.2, (view_eq_some hview').2.2, tooltip_rendered, ← same]
  rfl

end

/-- Whatever was done to an item, and whatever makes it render: it shows something exactly if it is
active and its content template is not blank, compiles to no more levels than the cache allows and
evaluates on the refreshed scope to a value with a text, which is any value but the empty string.
Then the content is the nodes of that value, and there is a tooltip exactly if the tooltip template
gives a value with nodes, which are the tooltip. With another tooltip and another click template
the content is the same, and with another content template so is the tooltip, where there is
anything to show. -/
theorem shown_iff (definition : ModuleDefinition) (context : ItemContext) {cache : TemplateCache}
    (faithful : cache.Faithful) (clicks keys : Bool) (ops : List ItemOp)
    (trigger : RenderTrigger) :
    let i := (fresh definition context cache clicks keys).run ops
    i.render = i.apply .refresh ∧
    ((i.apply trigger).2.isSome = true ↔ i.state = .active ∧
      ∃ v, Gives cache.maxDepth context.limits (i.renderScope trigger) definition.template v ∧
        v.canonical ≠ "") ∧
    (∀ v : ItemValue, v.canonical = "" ↔ v = .string "") ∧
    (∀ view, (i.apply trigger).2 = some view → ∃ icons, i.icons = some icons ∧
      (∃ v, Gives cache.maxDepth context.limits (i.renderScope trigger) definition.template v ∧
        view.content = icons.nodes v) ∧
      ∀ ns, view.tooltip = some ns ↔ ns ≠ [] ∧ ∃ s ∈ definition.tooltip, ∃ v,
        Gives cache.maxDepth context.limits (i.renderScope trigger) s v ∧ icons.nodes v = ns) ∧
    ∀ cache' : TemplateCache, cache'.Faithful → cache'.maxDepth = cache.maxDepth →
      (∀ tooltip onClick,
        ((((fresh { definition with tooltip, onClick } context cache' clicks keys).run ops).apply
          trigger).2.map (·.content)) = (i.apply trigger).2.map (·.content)) ∧
      ∀ template view view', (i.apply trigger).2 = some view →
        (((fresh { definition with template } context cache' clicks keys).run ops).apply
          trigger).2 = some view' → view'.tooltip = view.tooltip := by
  intro i
  have made : Made definition context cache.maxDepth i :=
    made_fresh_run faithful clicks keys ops
  refine ⟨rfl, made.apply_isSome_iff trigger, fun v => v.canonical_eq_empty_iff,
    fun view shown => made.of_apply_eq_some trigger shown,
    fun cache' faithful' depth => ⟨fun tooltip onClick => ?_,
      fun template view view' shown shown' => ?_⟩⟩
  · let other : Item := fresh { definition with tooltip, onClick } context cache' clicks keys
    have rebuilt : other = (fresh definition context cache clicks keys).rebuilt other := rfl
    change ((other.run ops).apply trigger).2.map _ = _
    rw [rebuilt, run_rebuilt]
    refine map_content_apply_rebuilt i other trigger ?_
    rw [content_run, content_fresh_eq _ context faithful' clicks keys,
      content_fresh_eq definition context faithful clicks keys, depth]
  · let other : Item := fresh { definition with template } context cache' clicks keys
    have rebuilt : other = (fresh definition context cache clicks keys).rebuilt other := rfl
    change ((other.run ops).apply trigger).2 = _ at shown'
    rw [rebuilt, run_rebuilt] at shown'
    refine tooltip_apply_rebuilt i other trigger ?_ shown shown'
    rw [tooltip_run, tooltip_fresh_eq _ context faithful' clicks keys,
      tooltip_fresh_eq definition context faithful clicks keys, depth]

/-- A notice is shown, and a tooltip that does not compile leaves its content alone. -/
theorem shown_iff_broken_tooltip :
    (notice.run (handed [[("note", .string "on")]])).render.2.isSome = true ∧
    ((fresh { id := "a", template := "note", tooltip := some "(" } ⟨[], {}, some [], true⟩
        (.empty 64) false false).run (handed [[("note", .string "on")]])).render.2.map (·.content) =
      (notice.run (handed [[("note", .string "on")]])).render.2.map (·.content) := by
  have faithful := TemplateCache.faithful_empty 64
  have compiled : CompiledTemplate.compile "note" 64 = .ok ⟨"note", .name "note"⟩ := by
    rw [CompiledTemplate.compile, parse_note]
  have evaluated (scope : ItemScope) (h : Dict.get? scope "note" = some (.string "on")) :
      (CompiledTemplate.mk "note" (.name "note")).evaluate scope {} = .ok (.string "on") := by
    have resolved : Template.Scope.resolve scope "note" = .ok (.string "on") := by
      rw [Template.Scope.resolve, h]
    simp only [CompiledTemplate.evaluate, Template.Expr.outcome, Template.Expr.evaluate,
      Template.Expr.eval, resolved]
    rfl
  obtain ⟨-, shown, -, -, others⟩ := shown_iff { id := "a", template := "note" }
    ⟨[], {}, some [], true⟩ faithful false false (handed [[("note", .string "on")]]) .refresh
  refine ⟨shown.mpr ⟨rfl, .string "on", ⟨by decide, _, compiled, evaluated _ rfl⟩, by decide⟩, ?_⟩
  exact (others _ faithful rfl).1 (some "(") none

end Item

end TemplateBar
