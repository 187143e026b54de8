import TemplateBar.Proofs.Toolbar.Twins

/-!
# What a mount captures

Icons may be registered and environments handed in at any time, but only a mount looks at them.
Until the next mount that succeeds the item goes on with those of the last one, wherever they are
kept: as the icons that views and panels are drawn with and as values in the scope. The next mount
captures the newest.
-/
namespace TemplateBar

/-- The operation changes nothing but what the next mount captures. -/
def LoneOp.IsSupply : LoneOp → Prop
  | .registerIcon _ _ | .item (.setEnvironment _) => True
  | _ => False

open ItemInputs

theorem Item.get?_activated (i : Item) (icons : IconView) (surroundings : Dict String)
    (key : String) :
    Dict.get? (i.seedScope icons surroundings).activated.refreshScope.scope key =
      (Dict.get? (Dict.ofList i.extraVars) key).or
        ((refreshed? i.context.translations i.window key).or
          ((seeded? icons (i.context.environment.getD surroundings) key).or
            (Dict.get? i.scope key))) := by
  rw [get?_refreshScope, ← get?_seedScope]
  rfl

namespace LoneItem

variable {l l' : LoneItem} {r : LatestInputs}

theorem Twin.supply (h : l.Twin l') {op : LoneOp} (hop : op.IsSupply) : l.Twin (l'.step op) := by
  cases op with
  | registerIcon name glyph => exact ⟨h.item, h.host, h.pending, h.mounts⟩
  | item op =>
    cases op with
    | setEnvironment environment =>
      have hpending : (l'.step (.item (.setEnvironment environment))).pending = l'.pending :=
        List.append_nil _
      exact ⟨h.item.setEnvironment environment, h.host, hpending.trans h.pending, h.mounts⟩
    | _ => exact hop.elim
  | _ => exact hop.elim

theorem mounts_of_begins {op : LoneOp} (h : l.Begins op) : (l.step op).mounts = l.mounts + 1 := by
  cases op with
  | item op => exact congrArg (fun b : Bool => l.mounts + if b then 1 else 0) h
  | _ => exact h.elim

theorem mounts_le_run (l : LoneItem) (ops : List LoneOp) : l.mounts ≤ (l.run ops).mounts := by
  induction ops generalizing l with
  | nil => exact Nat.le_refl _
  | cons op ops ih =>
    refine Nat.le_trans ?_ (ih (l.step op))
    cases op with
    | item op => exact Nat.le_add_right _ _
    | registerIcon name glyph | answerWith brightness script => exact Nat.le_refl _
    | runTask n =>
      change l.mounts ≤ (l.runTask n).mounts
      unfold runTask
      split <;> exact Nat.le_refl _

/-- In a run that counts no mount, none succeeds. -/
theorem not_begins_of_mounts {before after : List LoneOp} {op : LoneOp}
    (h : (l.run (before ++ op :: after)).mounts = l.mounts) : ¬(l.run before).Begins op := by
  intro hbegins
  rw [run_append, run_cons] at h
  have hbefore := l.mounts_le_run before
  have hmount := mounts_of_begins hbegins
  have hafter := ((l.run before).step op).mounts_le_run after
  omega

theorem paddedOutcomes_of_supply (l : LoneItem) {ps : List PaddedOp}
    (hpad : ∀ p ∈ ps, ∀ op ∈ p.before, op.IsSupply)
    (hmounts : (l.run (ps.map (·.op))).mounts = l.mounts) :
    l.paddedOutcomes ps = l.outcomes (ps.map (·.op)) := by
  refine paddedOutcomes_eq Twin (fun l op => ¬l.Begins op)
    (fun _ _ _ h hop => h.supply hop) (fun _ _ op h hfine => h.step op fun hb => absurd hb hfine)
    (.refl l) hpad fun before op after hops => ?_
  rw [hops] at hmounts
  exact not_begins_of_mounts hmounts

theorem step_mount_item (h : l.item.state = .unmounted) (surroundings : Dict String) :
    (l.step (.item (.mount surroundings))).item.item =
      (l.item.item.seedScope l.catalog.snapshot.1 surroundings).activated.refreshScope := by
  refine (l.item.act_item l.catalog.snapshot.1 (.mount surroundings)).trans ?_
  refine Eq.trans ?_ (l.item.item.mounted_eq l.catalog.snapshot.1 surroundings)
  exact congrArg Prod.fst (Item.mount_of_unmounted h l.catalog.snapshot.1 surroundings)

/-- A mount writes the newest of everything into the scope. -/
theorem Holds.get?_mounted (h : l.Holds r) (hu : l.item.state = .unmounted)
    (surroundings : Dict String) (key : String) :
    Dict.get? (l.step (.item (.mount surroundings))).item.item.scope key =
      (Dict.get? (Dict.ofList r.vars) key).or
        ((refreshed? l.item.item.context.translations r.window key).or
          ((seeded? ⟨r.glyphs⟩ (r.environment.getD surroundings) key).or
            (Dict.get? l.item.item.scope key))) := by
  obtain ⟨henvironment, hwindow, hvars⟩ : _ ∧ _ ∧ _ := by simpa [Item.kept] using h.kept
  rw [step_mount_item hu, Item.get?_activated, henvironment, hwindow, hvars, h.icons]

section

variable (kind : ModuleKind) (definition : ModuleDefinition) (context : ItemContext)
  (cache : TemplateCache) (clicks keys : Bool) {catalog : IconCatalog} (h : catalog.Reachable)
  (host : Host)

include h

/-- After any run of an item of either kind, and until the next mount that succeeds, all operations
give what they give when icons are registered and environments handed in between them. A mount
captures the icons and the environment that are the newest at that moment, whenever they came: its
icons are those, and so are `icon` and `env` in the scope where no extra variable hides them. -/
theorem outcomes_until_mount (ops : List LoneOp) :
    let l := (start (.fresh kind definition context cache clicks keys) catalog host).run ops
    let latest := LatestInputs.after ⟨catalog.glyphs, context.environment, none, []⟩ ops
    (∀ ps : List PaddedOp, (∀ p ∈ ps, ∀ op ∈ p.before, op.IsSupply) →
      (l.run (ps.map (·.op))).mounts = l.mounts →
      l.paddedOutcomes ps = l.outcomes (ps.map (·.op))) ∧
    (l.item.state = .unmounted → ∀ surroundings,
      let mounted := (l.step (.item (.mount surroundings))).item.item
      l.Begins (.item (.mount surroundings)) ∧ mounted.state = .active ∧
      mounted.icons = some ⟨latest.glyphs⟩ ∧
      ∀ key, Dict.get? mounted.scope key =
        (Dict.get? (Dict.ofList latest.vars) key).or
          ((refreshed? context.translations latest.window key).or
            ((seeded? ⟨latest.glyphs⟩ (latest.environment.getD surroundings) key).or
              (Dict.get? l.item.item.scope key)))) := by
  intro l latest
  have hholds : l.Holds latest :=
    (start_holds kind definition context cache clicks keys host h).run ops
  have htranslations : l.item.item.context.translations = context.translations :=
    translations_run kind definition context cache clicks keys host ops
  refine ⟨fun ps hpad hmounts => l.paddedOutcomes_of_supply hpad hmounts, fun hu surroundings => ?_⟩
  intro mounted
  refine ⟨BarItem.begins_of_unmounted hu _ surroundings, ?_, ?_, fun key => ?_⟩
  · exact congrArg Item.state (step_mount_item hu surroundings)
  · refine (congrArg Item.icons (step_mount_item hu surroundings)).trans ?_
    exact congrArg some hholds.icons
  · rw [← htranslations]
    exact hholds.get?_mounted hu surroundings key

end

/-- A plain item made before any icon was registered. -/
def early : LoneItem :=
  start (.fresh .generic { id := "a", template := "icon.bell" } ⟨[], {}, some [], true⟩ (.empty 64)
    false false) .empty ⟨none, none, []⟩

/-- An icon and an environment that come after a mount are there from the next one on. -/
theorem outcomes_until_mount_bell :
    IconCatalog.empty.Reachable ∧
    (early.run [.item (.mount [])]).paddedOutcomes
        [⟨[.registerIcon "bell" "b", .item (.setEnvironment [("A", "1")])],
          .item (.apply .refresh)⟩] =
      (early.run [.item (.mount [])]).outcomes [.item (.apply .refresh)] ∧
    (early.run [.item (.mount [])]).item.item.icons = some ⟨[]⟩ ∧
    (let again := (early.run [.item (.mount []), .registerIcon "bell" "b",
      .item (.setEnvironment [("A", "1")]), .item .unmount, .item (.mount [])]).item.item
    again.icons = some ⟨[("bell", "b")]⟩ ∧
      Dict.get? again.scope "env" = some (.object [("A", .string "1")])) := by
  obtain ⟨hpadded, -⟩ := outcomes_until_mount .generic { id := "a", template := "icon.bell" }
    ⟨[], {}, some [], true⟩ (.empty 64) false false .empty ⟨none, none, []⟩ [.item (.mount [])]
  obtain ⟨-, hmounted⟩ := outcomes_until_mount .generic { id := "a", template := "icon.bell" }
    ⟨[], {}, some [], true⟩ (.empty 64) false false .empty ⟨none, none, []⟩
    [.item (.mount []), .registerIcon "bell" "b", .item (.setEnvironment [("A", "1")]),
      .item .unmount]
  have hmounts : ((early.run [.item (.mount [])]).run [.item (.apply .refresh)]).mounts =
      (early.run [.item (.mount [])]).mounts := by decide +kernel
  have hpad := hpadded [⟨[.registerIcon "bell" "b", .item (.setEnvironment [("A", "1")])],
    .item (.apply .refresh)⟩] (by simp [LoneOp.IsSupply]) hmounts
  have hname : isIconName "bell" = true := by decide +kernel
  have hlatest : LatestInputs.after ⟨IconCatalog.empty.glyphs, some [], none, []⟩
      [.item (.mount []), .registerIcon "bell" "b", .item (.setEnvironment [("A", "1")]),
        .item .unmount] = ⟨[("bell", "b")], some [("A", "1")], none, []⟩ := by
    simp only [LatestInputs.after, List.foldl_cons, List.foldl_nil, LatestInputs.step, hname,
      if_true]
    rfl
  obtain ⟨-, -, hicons, hscope⟩ := hmounted (by decide +kernel) []
  rw [hlatest] at hicons hscope
  refine ⟨.empty, hpad, by decide +kernel, hicons, (hscope "env").trans ?_⟩
  simp [Dict.ofList, refreshed?, seeded?, Dict.mapValues]

end LoneItem

end TemplateBar
