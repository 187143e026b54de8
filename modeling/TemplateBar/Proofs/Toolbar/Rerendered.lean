import TemplateBar.Proofs.Toolbar.Twins

/-!
# Rendering once more

A render writes the scope, and that of a settings item also how the item is highlighted. But between
operations the scope of an active item already says what the newest inputs say, an item that is not
active is not rendered, and the highlighting is written anew before it is shown. So nobody can tell
from what comes later whether an item was rendered once more.
-/
namespace TemplateBar

open ItemInputs

theorem Item.Coherent.apply_refresh {i : Item} (h : i.Coherent) : (i.apply .refresh).1 = i := by
  rw [Item.apply_fst]
  split
  · next hactive => exact h.refreshed hactive
  · rfl

theorem SettingsItem.apply_refresh {s : SettingsItem} (h : s.item.Coherent) :
    (s.apply .refresh).1 = s.supplied s.isOpen s.item.context.environment :=
  congrArg (fun item => { s with item }) (h.step (.setActive s.isOpen)).apply_refresh

theorem BarItem.Twin.apply_refresh {b b' : BarItem} (h : b.Twin b') (hc : b'.item.Coherent) :
    b.Twin (b'.apply .refresh).1 := by
  cases h with
  | plain same environment =>
    have hi := Item.Coherent.apply_refresh hc
    exact (congrArg (fun i => Twin _ (generic i)) hi).mpr (.plain same environment)
  | withPanel s active environment =>
    have hs := SettingsItem.apply_refresh (s := s.supplied active environment) hc
    exact (congrArg (fun s' => Twin _ (settings s')) hs).mpr (.withPanel s s.isOpen environment)

namespace LoneItem

variable {l l' : LoneItem} {r : LatestInputs}

theorem Holds.sameSupply (h : l.Holds r) (h' : l'.Holds r) : l.SameSupply l' where
  icons := h'.icons.trans h.icons.symm
  environment := congrArg Prod.fst (h'.kept.trans h.kept.symm)

/-- Twins to which the same was handed in. -/
structure AlikeTwins (l l' : LoneItem) : Prop where
  twin : l.Twin l'
  latest : ∃ r, l.Holds r ∧ l'.Holds r

theorem AlikeTwins.render (h : l.AlikeTwins l') :
    l.AlikeTwins (l'.step (.item (.apply .refresh))) := by
  obtain ⟨r, hl, hl'⟩ := h.latest
  have hpending : (l'.step (.item (.apply .refresh))).pending = l'.pending := List.append_nil _
  exact ⟨⟨h.twin.item.apply_refresh hl'.coherent, h.twin.host, hpending.trans h.twin.pending,
    h.twin.mounts⟩, r, hl, hl'.step (.item (.apply .refresh))⟩

theorem AlikeTwins.step (h : l.AlikeTwins l') (op : LoneOp) :
    l'.outcome op = l.outcome op ∧ (l.step op).AlikeTwins (l'.step op) := by
  obtain ⟨r, hl, hl'⟩ := h.latest
  obtain ⟨houtcome, htwin⟩ := h.twin.step op fun _ => hl.sameSupply hl'
  exact ⟨houtcome, htwin, r.step op, hl.step op, hl'.step op⟩

theorem Holds.paddedOutcomes_of_renders (h : l.Holds r) {ps : List PaddedOp}
    (hpad : ∀ p ∈ ps, ∀ op ∈ p.before, op = .item (.apply .refresh)) :
    l.paddedOutcomes ps = l.outcomes (ps.map (·.op)) := by
  refine paddedOutcomes_eq AlikeTwins (fun _ _ => True) ?_ (fun _ _ op h _ => h.step op)
    ⟨.refl l, r, h, h⟩ hpad fun _ _ _ _ => trivial
  rintro l l' _ h rfl
  exact h.render

/-- While active, what a refresh would write is there. -/
theorem Holds.get?_of_active (h : l.Holds r) (hactive : l.item.state = .active) {key : String}
    {value : ItemValue}
    (hvalue : (Dict.get? (Dict.ofList r.vars) key).or
      (refreshed? l.item.item.context.translations r.window key) = some value) :
    Dict.get? l.item.item.scope key = some value := by
  obtain ⟨-, hwindow, hvars⟩ : _ ∧ _ ∧ _ := by simpa [Item.kept] using h.kept
  rw [← h.coherent.refreshed hactive, Item.get?_refreshScope, hwindow, hvars, ← Option.or_assoc,
    hvalue]
  rfl

section

variable (kind : ModuleKind) (definition : ModuleDefinition) (context : ItemContext)
  (cache : TemplateCache) (clicks keys : Bool) {catalog : IconCatalog} (h : catalog.Reachable)
  (host : Host)

include h

/-- After any run of an item of either kind, renders make no difference to what all operations give,
wherever and in whichever state they are put in between. While an item is active its scope holds the
newest extra variables and, where they leave room for them, the newest window and the translation
function, so that refreshing it changes nothing. -/
theorem outcomes_with_renders (ops : List LoneOp) :
    let l := (start (.fresh kind definition context cache clicks keys) catalog host).run ops
    let latest := LatestInputs.after ⟨catalog.glyphs, context.environment, none, []⟩ ops
    (∀ ps : List PaddedOp, (∀ p ∈ ps, ∀ op ∈ p.before, op = .item (.apply .refresh)) →
      l.paddedOutcomes ps = l.outcomes (ps.map (·.op))) ∧
    (l.item.state = .active → l.item.item.refreshScope = l.item.item ∧
      ∀ key value, (Dict.get? (Dict.ofList latest.vars) key).or
          (refreshed? context.translations latest.window key) = some value →
        Dict.get? l.item.item.scope key = some value) := by
  intro l latest
  have hholds : l.Holds latest :=
    (start_holds kind definition context cache clicks keys host h).run ops
  have htranslations : l.item.item.context.translations = context.translations :=
    translations_run kind definition context cache clicks keys host ops
  refine ⟨fun ps hpad => hholds.paddedOutcomes_of_renders hpad, fun hactive => ?_⟩
  refine ⟨hholds.coherent.refreshed hactive, fun key value hvalue => ?_⟩
  rw [← htranslations] at hvalue
  exact hholds.get?_of_active hactive hvalue

end

/-- Renders in all states of a settings item, and a notice that came before the mount. -/
theorem outcomes_with_renders_panel :
    IconCatalog.empty.Reachable ∧
    untouched.paddedOutcomes
        [⟨[.item (.apply .refresh)], .item (.mount [])⟩,
          ⟨[.item (.apply .refresh), .item (.apply .refresh)], .item (.settings (.setOpen true))⟩,
          ⟨[.item (.apply .refresh)], .item (.apply (.focusChanged none))⟩] =
      untouched.outcomes [.item (.mount []), .item (.settings (.setOpen true)),
        .item (.apply (.focusChanged none))] ∧
    (untouched.run [.item (.apply (.varsChanged [("note", .string "x")])),
      .item (.mount [])]).item.state = .active ∧
    Dict.get? (untouched.run [.item (.apply (.varsChanged [("note", .string "x")])),
      .item (.mount [])]).item.item.scope "note" = some (.string "x") := by
  obtain ⟨hpadded, -⟩ := outcomes_with_renders .settings { id := "a", template := "'x'" }
    ⟨[], {}, some [], true⟩ (.empty 64) false false .empty ⟨none, none, []⟩ []
  obtain ⟨-, hactive⟩ := outcomes_with_renders .settings { id := "a", template := "'x'" }
    ⟨[], {}, some [], true⟩ (.empty 64) false false .empty ⟨none, none, []⟩
    [.item (.apply (.varsChanged [("note", .string "x")])), .item (.mount [])]
  refine ⟨.empty, hpadded [⟨[.item (.apply .refresh)], .item (.mount [])⟩,
    ⟨[.item (.apply .refresh), .item (.apply .refresh)], .item (.settings (.setOpen true))⟩,
    ⟨[.item (.apply .refresh)], .item (.apply (.focusChanged none))⟩] (by simp), rfl, ?_⟩
  obtain ⟨-, hscope⟩ := hactive rfl
  exact hscope "note" (.string "x") rfl

end LoneItem

end TemplateBar
