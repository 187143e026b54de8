import TemplateBar.Proofs.Icon.Node
import TemplateBar.Proofs.Item.Scope
import TemplateBar.Proofs.Template.Cache
import TemplateBar.Proofs.Template.Member
import TemplateBar.Proofs.Template.Budget

/-!
# Icons as members of `icon`

Scopes hold the registered icons as one object, whose members are their own names. A template that
takes one of these members by name shows the icon of that name. The names that are keywords of
expressions are registered as well, but no template can take them in this way.
-/
namespace TemplateBar

open Template (Expr Limits Scope Symbol Value HostFunction)

section

variable {F : Type}

theorem IconView.get?_scopeValue (v : IconView) (name : String) :
    Dict.get? (v.glyphs.map fun e => (e.1, (.string e.1 : Value F))) name =
      (v.glyph? name).map fun _ => .string name := by
  obtain ⟨glyphs⟩ := v
  unfold IconView.glyph?
  induction glyphs with
  | nil => rfl
  | cons e glyphs ih =>
    by_cases hk : e.1 = name
    · simp [Dict.get?, hk]
    · simpa [Dict.get?, hk] using ih

theorem IconView.member_scopeValue {v : IconView} {name glyph : String}
    (h : v.glyph? name = some glyph) :
    (v.scopeValue : Value F).member name = .ok (.string name) := by
  rw [IconView.scopeValue, Value.member, IconView.get?_scopeValue, h]
  rfl

end

namespace Template.Expr

variable {F : Type} [DecidableEq F] [HostFunction F]

/-- A member of a name visits two nodes, one below the other. -/
theorem outcome_member {scope : Scope F} {limits : Limits} {owner property : String} {v : Value F}
    (hv : Dict.get? scope owner = some v) (hsteps : 2 ≤ limits.maxSteps)
    (hdepth : 2 ≤ limits.maxDepth) :
    outcome scope limits (.member (.name owner) property) = v.member property := by
  have hresolve : Scope.resolve scope owner = .ok v := by rw [Scope.resolve, hv]
  have hwalk : walk scope 1 (.member (.name owner) property) = ⟨v.member property, [1, 2]⟩ := by
    simp only [walk, hresolve]
    rfl
  rw [outcome, evaluate, eval_eq_walk, hwalk, Walk.within_of_le]
  · exact hsteps
  · exact hdepth

end Template.Expr

namespace Item

open ItemInputs

/-- Where no extra variables of this mount hide them, `icon` has the icons captured. -/
theorem Reflects.get?_icon {t : Translations} {r : ItemInputs} {i : Item} (h : Reflects t r i)
    {icons : IconView} (hicons : i.icons = some icons)
    (hvars : ∀ vars ∈ r.written, Dict.get? (Dict.ofList vars) "icon" = none) :
    Dict.get? i.refreshScope.scope "icon" = some icons.scopeValue := by
  obtain ⟨c, hc, rfl⟩ := Option.map_eq_some_iff.mp (h.icons.symm.trans hicons)
  have hmounted : r.captured.isSome := by rw [hc]; rfl
  obtain ⟨rest, hwritten⟩ := h.written hmounted
  have hlast : Dict.get? (Dict.ofList r.vars) "icon" = none := hvars r.vars (by simp [hwritten])
  rw [h.get?_refreshed hmounted, lookup?, hlast, newest?_eq_none hvars, captured?, hc]
  rfl

theorem content_fresh {definition : ModuleDefinition} {context : ItemContext}
    {cache : TemplateCache} (hcache : cache.Faithful) (clicks keys : Bool)
    (hblank : Text.isAllBlank definition.template = false) :
    (fresh definition context cache clicks keys).content =
      (CompiledTemplate.compile definition.template cache.maxDepth).toOption := by
  change (compileSource cache (some definition.template)).1 = _
  rw [compileSource, if_neg (by simp [hblank]), hcache.compile_fst]

theorem isIdentifier_of_isIconName {n : String} (h : isIconName n = true) :
    Template.IsIdentifier n.toList := by
  unfold isIconName at h
  cases hn : n.toList with
  | nil => simp [hn] at h
  | cons c cs =>
    simp only [hn, Bool.and_eq_true, List.all_eq_true] at h
    have hstart : Template.isNameStart c = true := by simp [Template.isNameStart, h.1]
    refine ⟨⟨c, cs, rfl, hstart⟩, fun d hd => ?_⟩
    rcases List.mem_cons.mp hd with rfl | hd
    · simp [Template.isNameChar, hstart]
    · have hword := h.2 d hd
      simp only [Text.isAsciiWord, Bool.or_eq_true] at hword
      simp only [Template.isNameChar, Template.isNameStart, Bool.or_eq_true]
      tauto

theorem compile_iconMember {n : String} (hn : isIconName n = true) {D : Nat} (hD : 2 ≤ D) :
    (CompiledTemplate.compile ("icon." ++ n) D).toOption =
      if (Symbol.withSpelling Symbol.keywords n.toList).isSome then none
      else some ⟨"icon." ++ n, .member (.name "icon") n⟩ := by
  have hicon := isIdentifier_of_isIconName (n := "icon") (by decide)
  rw [CompiledTemplate.compile, show "icon." = "icon" ++ "." from rfl,
    Expr.parse_member hicon (isIdentifier_of_isIconName hn) (by decide) hD]
  cases Symbol.withSpelling Symbol.keywords n.toList <;> rfl

theorem templateNodes_iconMember {c : IconCatalog} (hc : c.Reachable) {n glyph source : String}
    (hglyph : c.snapshot.1.glyph? n = some glyph) {i : Item}
    (hscope : Dict.get? i.scope "icon" = some c.snapshot.1.scopeValue)
    (hsteps : 2 ≤ i.context.limits.maxSteps) (hdepth : 2 ≤ i.context.limits.maxDepth) :
    i.templateNodes (some ⟨source, .member (.name "icon") n⟩) c.snapshot.1 =
      [.icon n none glyph] := by
  rw [templateNodes, CompiledTemplate.evaluate, Expr.outcome_member hscope hsteps hdepth,
    IconView.member_scopeValue hglyph]
  exact hc.nodes_name hglyph

/-- An item that shows the member of a name. -/
def iconItem (n : String) : Item :=
  fresh { id := "a", template := "icon." ++ n } ⟨[], {}, some [], true⟩ (.empty 64) false false

/-- While an item is active whose template takes the member of a registered name from `icon`, it
shows the icon of that name and nothing else; but if the name is a keyword of expressions, the
template does not compile and nothing is shown. -/
theorem content_of_iconMember {c : IconCatalog} (hc : c.Reachable) {n : String}
    (hn : n ∈ Dict.keys c.glyphs) (definition : ModuleDefinition)
    (htemplate : definition.template = "icon." ++ n) (context : ItemContext)
    {cache : TemplateCache} (hcache : cache.Faithful) (clicks keys : Bool) (ops : List ItemOp)
    (hnesting : 2 ≤ cache.maxDepth) (hsteps : 2 ≤ context.limits.maxSteps)
    (hdepth : 2 ≤ context.limits.maxDepth)
    (hactive : ((fresh definition context cache clicks keys).run ops).state = .active)
    (hicons : ((fresh definition context cache clicks keys).run ops).icons = some c.snapshot.1)
    (hvars : ∀ vars ∈ (after context.environment ops).written,
      Dict.get? (Dict.ofList vars) "icon" = none) :
    ∃ glyph, c.snapshot.1.glyph? n = some glyph ∧
      ((fresh definition context cache clicks keys).run ops).render.2.map (·.content) =
        if (Symbol.withSpelling Symbol.keywords n.toList).isSome then none
        else some [.icon n none glyph] := by
  have hname : n ∈ c.snapshot.1.names := by rwa [IconView.names, hc.snapshot_glyphs]
  obtain ⟨glyph, hglyph⟩ := Option.isSome_iff_exists.mp (Dict.mem_keys_iff.mp hname)
  refine ⟨glyph, hglyph, ?_⟩
  have hblank : Text.isAllBlank definition.template = false := by
    rw [htemplate, Text.isAllBlank, String.toList_append]
    rfl
  have hcontent : ((fresh definition context cache clicks keys).run ops).content =
      if (Symbol.withSpelling Symbol.keywords n.toList).isSome then none
      else some ⟨"icon." ++ n, .member (.name "icon") n⟩ := by
    rw [content_run, content_fresh hcache clicks keys hblank, htemplate,
      compile_iconMember (hc.names n hname) hnesting]
  have hlimits : ((fresh definition context cache clicks keys).run ops).context.limits =
      context.limits := limits_run _ ops
  have hscope := (run_reflects definition context cache clicks keys ops).get?_icon hicons hvars
  rw [content_render hactive hicons, hcontent]
  split
  · rfl
  · rw [templateNodes_iconMember hc hglyph hscope (hlimits ▸ hsteps) (hlimits ▸ hdepth)]
    rfl

theorem content_of_iconMember_bell : ∃ c : IconCatalog, c.Reachable ∧
    Dict.keys c.glyphs = ["bell"] ∧
    ((iconItem "bell").run [.mount c.snapshot.1 []]).state = .active ∧
    ((iconItem "bell").run [.mount c.snapshot.1 []]).icons = some c.snapshot.1 ∧
    ((iconItem "bell").run [.mount c.snapshot.1 []]).render.2.map (·.content) =
      some [.icon "bell" none "b"] := by
  have hbell : IconCatalog.empty.register "bell" "b" = .ok ⟨[("bell", "b")], none⟩ := by decide
  have hreach := IconCatalog.Reachable.empty.register hbell
  have hkey : "bell" ∈ Dict.keys [("bell", "b")] := List.mem_singleton.mpr rfl
  have hvars : ∀ vars ∈ (after (some []) [.mount ⟨[("bell", "b")]⟩ []]).written,
      Dict.get? (Dict.ofList vars) "icon" = none := by
    intro vars hvars
    obtain rfl := List.mem_singleton.mp hvars
    rfl
  obtain ⟨glyph, hglyph, hcontent⟩ := content_of_iconMember hreach hkey
    { id := "a", template := "icon." ++ "bell" } rfl ⟨[], {}, some [], true⟩
    (TemplateCache.faithful_empty 64) false false [.mount ⟨[("bell", "b")]⟩ []] (by decide)
    (by decide) (by decide) rfl rfl hvars
  obtain rfl : "b" = glyph := Option.some.inj hglyph
  exact ⟨_, hreach, rfl, rfl, rfl, hcontent⟩

/-- The name of the remainder operator is registered, but is no member of `icon` to the parser. -/
theorem iconMember_mod_not_shown : ∃ c : IconCatalog, c.Reachable ∧
    IconCatalog.empty.register "mod" "M" = .ok c ∧ c.snapshot.1.glyph? "mod" = some "M" ∧
    ((iconItem "mod").run [.mount c.snapshot.1 []]).state = .active ∧
    ((iconItem "mod").run [.mount c.snapshot.1 []]).icons = some c.snapshot.1 ∧
    ((iconItem "mod").run [.mount c.snapshot.1 []]).render.2 = none := by
  have hmod : IconCatalog.empty.register "mod" "M" = .ok ⟨[("mod", "M")], none⟩ := by decide
  refine ⟨_, IconCatalog.Reachable.empty.register hmod, hmod, rfl, rfl, rfl, ?_⟩
  decide +kernel

end Item
end TemplateBar
