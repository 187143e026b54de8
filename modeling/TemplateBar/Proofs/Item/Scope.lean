import TemplateBar.Proofs.Dict
import TemplateBar.Proofs.Item.Run

/-!
# What an active item's scope holds

A scope lives as long as its item and is only ever written name by name, so beside the latest
inputs it holds what earlier extra variables left in it. `ItemInputs` follows a run and keeps the
latest inputs and those leftovers; `Reflects` is the invariant that ties them to the item. While an
item is active its scope is exactly `lookup?`, and where no leftover stands it is `latest?`: the
captured and refreshed names under the last extra variables.
-/
namespace TemplateBar

/-- What a run has handed to an item so far. -/
structure ItemInputs where
  /-- Icons and environment of the current mount. -/
  captured : Option (IconView × Dict String)
  /-- The environment that the next mount captures, if one was fixed. -/
  environment : Option (Dict String)
  window : Option WindowSnapshot
  vars : Dict ItemValue
  highlighted : Bool
  /-- The extra variables that the current or last mount has rendered with, the newest first. -/
  written : List (Dict ItemValue)
  /-- Those of the mounts before it. -/
  former : List (Dict ItemValue)

namespace ItemInputs

def initial (environment : Option (Dict String)) : ItemInputs :=
  ⟨none, environment, none, [], false, [], []⟩

def step (r : ItemInputs) : ItemOp → ItemInputs
  | .mount icons surroundings =>
    match r.captured with
    | some _ => r
    | none =>
      { r with
        captured := some (icons, r.environment.getD surroundings)
        written := [r.vars]
        former := r.written ++ r.former }
  | .unmount => { r with captured := none }
  | .apply (.focusChanged window) => { r with window }
  | .apply (.varsChanged vars) =>
    { r with vars, written := if r.captured.isSome then vars :: r.written else r.written }
  | .apply .refresh => r
  | .click => r
  | .setActive highlighted => { r with highlighted }
  | .setEnvironment environment => { r with environment := some environment }

def after (environment : Option (Dict String)) (ops : List ItemOp) : ItemInputs :=
  ops.foldl step (initial environment)

/-- The value under a name in the first of the maps that have it. -/
def newest? (maps : List (Dict ItemValue)) (key : String) : Option ItemValue :=
  maps.findSome? fun vars => Dict.get? (Dict.ofList vars) key

/-- The names that every render writes. -/
def refreshed? (t : Translations) (window : Option WindowSnapshot) (key : String) :
    Option ItemValue :=
  if key = "t" then some (.function (.host (.translate t)))
  else if key = "window" then some (window.getD .unfocused).value
  else none

/-- The names that every mount writes. -/
def seeded? (icons : IconView) (environment : Dict String) (key : String) : Option ItemValue :=
  if key = "icon" then some icons.scopeValue
  else if key = "env" then some (.object (Dict.mapValues .string environment))
  else if key = "invoke" then some (.function (.host .invoke))
  else none

def captured? (r : ItemInputs) (key : String) : Option ItemValue :=
  r.captured.bind fun c => seeded? c.1 c.2 key

/-- The reserved names, overlaid by the last extra variables. -/
def latest? (t : Translations) (r : ItemInputs) (key : String) : Option ItemValue :=
  (Dict.get? (Dict.ofList r.vars) key).or ((refreshed? t r.window key).or (r.captured? key))

/-- As `latest?`, but earlier extra variables of this mount hide what the mount captured, and those
of earlier mounts stand where nothing else does. -/
def lookup? (t : Translations) (r : ItemInputs) (key : String) : Option ItemValue :=
  (Dict.get? (Dict.ofList r.vars) key).or <| (refreshed? t r.window key).or <|
    (newest? r.written key).or <| (r.captured? key).or (newest? r.former key)

/-- No name of earlier extra variables is missing from the last ones. -/
def NothingDropped (r : ItemInputs) : Prop :=
  ∀ vars ∈ r.written ++ r.former, ∀ key, (Dict.get? (Dict.ofList vars) key).isSome →
    (Dict.get? (Dict.ofList r.vars) key).isSome

structure SameLatest (a b : ItemInputs) : Prop where
  captured : a.captured = b.captured
  window : a.window = b.window
  vars : a.vars = b.vars
  highlighted : a.highlighted = b.highlighted

/-- The same values left by earlier extra variables. -/
structure SameLeftovers (a b : ItemInputs) : Prop where
  written : ∀ key, newest? a.written key = newest? b.written key
  former : ∀ key, newest? a.former key = newest? b.former key

theorem newest?_cons (vars : Dict ItemValue) (maps : List (Dict ItemValue)) (key : String) :
    newest? (vars :: maps) key =
      (Dict.get? (Dict.ofList vars) key).or (newest? maps key) := by
  unfold newest?
  rw [List.findSome?_cons]
  cases Dict.get? (Dict.ofList vars) key <;> rfl

theorem newest?_eq_none {maps : List (Dict ItemValue)} {key : String}
    (h : ∀ vars ∈ maps, Dict.get? (Dict.ofList vars) key = none) : newest? maps key = none :=
  List.findSome?_eq_none_iff.mpr h

theorem newest?_append (maps maps' : List (Dict ItemValue)) (key : String) :
    newest? (maps ++ maps') key = (newest? maps key).or (newest? maps' key) := by
  simp [newest?, List.findSome?_append]

/-- The names written at every mount or every render. -/
def reserved : List String := ["t", "window", "icon", "env", "invoke"]

theorem refreshed?_of_not_reserved {key : String} (h : key ∉ reserved) (t : Translations)
    (window : Option WindowSnapshot) : refreshed? t window key = none := by
  simp only [reserved, List.mem_cons, not_or] at h
  simp [refreshed?, h.1, h.2.1]

theorem seeded?_of_not_reserved {key : String} (h : key ∉ reserved) (icons : IconView)
    (environment : Dict String) : seeded? icons environment key = none := by
  simp only [reserved, List.mem_cons, not_or] at h
  simp [seeded?, h.2.2.1, h.2.2.2.1, h.2.2.2.2.1]

theorem not_reserved_of_none {key : String} {t : Translations} {window : Option WindowSnapshot}
    {icons : IconView} {environment : Dict String} (hr : refreshed? t window key = none)
    (hs : seeded? icons environment key = none) : key ∉ reserved := by
  intro h
  simp only [reserved, List.mem_cons, List.not_mem_nil, or_false] at h
  rcases h with rfl | rfl | rfl | rfl | rfl <;> simp [refreshed?, seeded?] at hr hs

/-- Which names a render writes does not depend on what it writes. -/
theorem refreshed?_eq_none {key : String} {t : Translations} {window : Option WindowSnapshot}
    (h : refreshed? t window key = none) (window' : Option WindowSnapshot) :
    refreshed? t window' key = none := by
  unfold refreshed? at h ⊢
  split_ifs at h ⊢
  rfl

theorem lookup?_eq_latest? {r : ItemInputs} (h : r.NothingDropped) (t : Translations)
    (key : String) : r.lookup? t key = r.latest? t key := by
  unfold lookup? latest?
  cases hv : Dict.get? (Dict.ofList r.vars) key with
  | some v => rfl
  | none =>
    have hnone : ∀ maps : List (Dict ItemValue), (∀ m ∈ maps, m ∈ r.written ++ r.former) →
        newest? maps key = none := by
      intro maps hmaps
      unfold newest?
      rw [List.findSome?_eq_none_iff]
      intro m hm
      have hd := h m (hmaps m hm) key
      rw [hv] at hd
      simpa using hd
    have hw := hnone r.written fun m hm => List.mem_append_left _ hm
    have hf := hnone r.former fun m hm => List.mem_append_right _ hm
    simp [hw, hf]

theorem latest?_congr {a b : ItemInputs} (h : SameLatest a b) (t : Translations) (key : String) :
    a.latest? t key = b.latest? t key := by
  simp only [latest?, captured?, h.captured, h.window, h.vars]

theorem lookup?_congr {a b : ItemInputs} (h : SameLatest a b)
    (hl : SameLeftovers a b ∨ (a.NothingDropped ∧ b.NothingDropped)) (t : Translations)
    (key : String) : a.lookup? t key = b.lookup? t key := by
  rcases hl with hl | ⟨ha, hb⟩
  · simp only [lookup?, captured?, h.captured, h.window, h.vars, hl.written, hl.former]
  · rw [lookup?_eq_latest? ha, lookup?_eq_latest? hb, latest?_congr h]

end ItemInputs

namespace Item

open ItemInputs

theorem get?_refreshScope (i : Item) (key : String) :
    Dict.get? i.refreshScope.scope key =
      (Dict.get? (Dict.ofList i.extraVars) key).or
        ((refreshed? i.context.translations i.window key).or (Dict.get? i.scope key)) := by
  rw [refreshScope_eq, refreshedScope, Dict.get?_overlay, Dict.get?_insert, Dict.get?_insert]
  congr 1
  unfold refreshed?
  by_cases ht : key = "t"
  · subst ht; simp
  · by_cases hw : key = "window"
    · subst hw; simp
    · simp [ht, hw, Ne.symm ht, Ne.symm hw]

theorem get?_seedScope (i : Item) (icons : IconView) (surroundings : Dict String) (key : String) :
    Dict.get? (i.seedScope icons surroundings).scope key =
      (seeded? icons (i.context.environment.getD surroundings) key).or
        (Dict.get? i.scope key) := by
  rw [seedScope_eq, seededScope, Dict.get?_insert, Dict.get?_insert, Dict.get?_insert]
  unfold seeded?
  by_cases hi : key = "icon"
  · subst hi; simp
  · by_cases he : key = "env"
    · subst he; simp
    · by_cases hv : key = "invoke"
      · subst hv; simp
      · simp [hi, he, hv, Ne.symm hi, Ne.symm he, Ne.symm hv]

theorem sorted_refreshScope {i : Item} (h : Dict.Sorted i.scope) :
    Dict.Sorted i.refreshScope.scope :=
  Dict.sorted_overlay (Dict.sorted_insert (Dict.sorted_insert h _ _) _ _) _

theorem sorted_seedScope {i : Item} (h : Dict.Sorted i.scope) (icons : IconView)
    (surroundings : Dict String) : Dict.Sorted (i.seedScope icons surroundings).scope :=
  Dict.sorted_insert (Dict.sorted_insert (Dict.sorted_insert h _ _) _ _) _ _

/-- The invariant of runs: an item holds what its inputs say. -/
structure Reflects (t : Translations) (r : ItemInputs) (i : Item) : Prop where
  translations : i.context.translations = t
  environment : i.context.environment = r.environment
  state : i.state = if r.captured.isSome then .active else .unmounted
  icons : i.icons = r.captured.map (·.1)
  window : i.window = r.window
  vars : i.extraVars = r.vars
  highlighted : i.active = r.highlighted
  sorted : Dict.Sorted i.scope
  /-- The last extra variables are among those written. -/
  written : r.captured.isSome → ∃ rest, r.written = r.vars :: rest
  scope : r.captured.isSome → ∀ key, Dict.get? i.scope key = r.lookup? t key
  /-- Between mounts only the names that the next mount does not write matter. -/
  left : r.captured = none → ∀ key, key ∉ reserved →
    Dict.get? i.scope key = newest? (r.written ++ r.former) key

variable {t : Translations} {r : ItemInputs} {i : Item}

theorem Reflects.captured_isSome (h : Reflects t r i) :
    r.captured.isSome = true ↔ i.state = .active := by
  rw [h.state]
  cases r.captured <;> simp

theorem Reflects.unmounted_of_none (h : Reflects t r i) (hc : r.captured = none) :
    i.state = .unmounted := by
  simp [h.state, hc]

/-- Refreshing writes what the last inputs say over a scope that already holds earlier ones. -/
theorem Reflects.get?_refreshed (h : Reflects t r i) (hc : r.captured.isSome) (key : String) :
    Dict.get? i.refreshScope.scope key = r.lookup? t key := by
  obtain ⟨rest, hw⟩ := h.written hc
  rw [get?_refreshScope, h.scope hc, h.vars, h.translations, h.window]
  unfold lookup?
  cases Dict.get? (Dict.ofList r.vars) key with
  | some v => rfl
  | none => cases refreshed? t r.window key <;> rfl

theorem Reflects.refreshScope (h : Reflects t r i) (hc : r.captured.isSome) :
    Reflects t r i.refreshScope where
  translations := h.translations
  environment := h.environment
  state := h.state
  icons := h.icons
  window := h.window
  vars := h.vars
  highlighted := h.highlighted
  sorted := sorted_refreshScope h.sorted
  written := h.written
  scope := fun _ => h.get?_refreshed hc
  left := fun hn => by simp [hn] at hc

theorem Reflects.mounted (h : Reflects t r i) (hc : r.captured = none) (icons : IconView)
    (surroundings : Dict String) :
    Reflects t (r.step (.mount icons surroundings)) (i.mounted icons surroundings) := by
  have hr : r.step (.mount icons surroundings) =
      { r with
        captured := some (icons, r.environment.getD surroundings)
        written := [r.vars]
        former := r.written ++ r.former } := by
    simp [ItemInputs.step, hc]
  rw [hr]
  refine
    { translations := h.translations
      environment := h.environment
      state := rfl
      icons := rfl
      window := h.window
      vars := h.vars
      highlighted := h.highlighted
      sorted := sorted_refreshScope (sorted_seedScope h.sorted icons surroundings)
      written := fun _ => ⟨[], rfl⟩
      scope := ?_
      left := fun hn => by simp at hn }
  intro _ key
  have he : (i.seedScope icons surroundings).extraVars = r.vars := h.vars
  have ht : (i.seedScope icons surroundings).context.translations = t := h.translations
  have hw : (i.seedScope icons surroundings).window = r.window := h.window
  change Dict.get? (i.seedScope icons surroundings).refreshScope.scope key = _
  rw [get?_refreshScope, get?_seedScope, he, ht, hw, h.environment]
  unfold lookup? captured?
  cases hv : Dict.get? (Dict.ofList r.vars) key with
  | some v => rfl
  | none =>
    cases hf : refreshed? t r.window key with
    | some v => rfl
    | none =>
      simp only [Option.none_or, newest?_cons, hv, Option.bind_some]
      cases hd : seeded? icons (r.environment.getD surroundings) key with
      | some v => simp [newest?]
      | none => simpa [newest?] using h.left hc key (not_reserved_of_none hf hd)

theorem Reflects.unmounted (h : Reflects t r i) (hc : r.captured.isSome) :
    Reflects t (r.step .unmount) i.unmounted := by
  refine
    { translations := h.translations
      environment := h.environment
      state := rfl
      icons := rfl
      window := h.window
      vars := h.vars
      highlighted := h.highlighted
      sorted := h.sorted
      written := by simp [ItemInputs.step]
      scope := by simp [ItemInputs.step]
      left := ?_ }
  intro _ key hkey
  obtain ⟨rest, hw⟩ := h.written hc
  have hs := h.scope hc key
  obtain ⟨⟨icons, environment⟩, hc⟩ := Option.isSome_iff_exists.mp hc
  have hl : r.lookup? t key = newest? (r.written ++ r.former) key := by
    simp only [lookup?, captured?, hc, Option.bind_some, refreshed?_of_not_reserved hkey,
      seeded?_of_not_reserved hkey, Option.none_or, newest?_append, hw, newest?_cons]
    cases Dict.get? (Dict.ofList r.vars) key <;> rfl
  exact hs.trans hl

theorem Reflects.get?_stored (h : Reflects t r i) (hc : r.captured.isSome) (trigger : RenderTrigger)
    (key : String) :
    Dict.get? (i.store trigger).refreshScope.scope key =
      (r.step (.apply trigger)).lookup? t key := by
  cases trigger with
  | refresh => exact h.get?_refreshed hc key
  | focusChanged window =>
    rw [get?_refreshScope]
    change (Dict.get? (Dict.ofList i.extraVars) key).or ((refreshed? i.context.translations window
      key).or (Dict.get? i.scope key)) = _
    rw [h.scope hc, h.vars, h.translations]
    simp only [lookup?, captured?, ItemInputs.step]
    cases Dict.get? (Dict.ofList r.vars) key with
    | some v => rfl
    | none =>
      cases hf : refreshed? t window key with
      | some v => rfl
      | none => simp [refreshed?_eq_none hf r.window]
  | varsChanged vars =>
    obtain ⟨rest, hw⟩ := h.written hc
    rw [get?_refreshScope]
    change (Dict.get? (Dict.ofList vars) key).or ((refreshed? i.context.translations i.window
      key).or (Dict.get? i.scope key)) = _
    rw [h.scope hc, h.translations, h.window]
    simp only [lookup?, captured?, ItemInputs.step, hc, if_true, newest?_cons]
    cases Dict.get? (Dict.ofList vars) key with
    | some v => rfl
    | none =>
      cases refreshed? t r.window key with
      | some v => rfl
      | none =>
        simp only [Option.none_or, hw, newest?_cons]
        cases Dict.get? (Dict.ofList r.vars) key <;> rfl

/-- New inputs and the refresh after them, while active. -/
theorem Reflects.stored_active (h : Reflects t r i) (hc : r.captured.isSome)
    (trigger : RenderTrigger) :
    Reflects t (r.step (.apply trigger)) (i.store trigger).refreshScope := by
  have hscope := h.get?_stored hc trigger
  have hleft : r.captured ≠ none := Option.isSome_iff_ne_none.mp hc
  cases trigger with
  | refresh => exact h.refreshScope hc
  | focusChanged window =>
    have hsorted : Dict.Sorted (i.store (.focusChanged window)).refreshScope.scope :=
      sorted_refreshScope (i := i.store (.focusChanged window)) h.sorted
    exact
      { h.refreshScope hc with
        window := rfl, sorted := hsorted, scope := fun _ => hscope
        left := fun hn => absurd hn hleft }
  | varsChanged vars =>
    have hsorted : Dict.Sorted (i.store (.varsChanged vars)).refreshScope.scope :=
      sorted_refreshScope (i := i.store (.varsChanged vars)) h.sorted
    have hr : r.step (.apply (.varsChanged vars)) = { r with vars, written := vars :: r.written } := by
      simp [ItemInputs.step, hc]
    rw [hr] at hscope ⊢
    exact
      { h.refreshScope hc with
        vars := rfl, sorted := hsorted, written := fun _ => ⟨_, rfl⟩, scope := fun _ => hscope
        left := fun hn => absurd hn hleft }

theorem Reflects.stored_unmounted (h : Reflects t r i) (hc : r.captured = none)
    (trigger : RenderTrigger) : Reflects t (r.step (.apply trigger)) (i.store trigger) := by
  cases trigger with
  | refresh => exact h
  | focusChanged window =>
    exact { h with window := rfl, scope := fun hs => by simp [ItemInputs.step, hc] at hs }
  | varsChanged vars =>
    have hr : r.step (.apply (.varsChanged vars)) = { r with vars } := by
      simp [ItemInputs.step, hc]
    rw [hr]
    refine { h with vars := rfl, written := ?_, scope := ?_ }
    · intro hs
      simp [hc] at hs
    · intro hs
      simp [hc] at hs

theorem Reflects.step (h : Reflects t r i) (op : ItemOp) : Reflects t (r.step op) (i.step op) := by
  -- Mounted or not decides for most operations whether they write the scope, refuse or do nothing.
  cases hc : r.captured with
  | none =>
    have hu : i.state = .unmounted := h.unmounted_of_none hc
    have hn : i.state ≠ .active := by simp [hu]
    cases op with
    | mount icons surroundings =>
      rw [Item.step, mount_of_unmounted hu]
      exact h.mounted hc icons surroundings
    | unmount =>
      rw [Item.step, unmount_of_unmounted hu]
      have hr : r.step .unmount = r := by simp [ItemInputs.step, ← hc]
      rw [hr]
      exact h
    | apply trigger =>
      rw [Item.step, apply_fst, if_neg hn]
      exact h.stored_unmounted hc trigger
    | click =>
      rw [Item.step, click_fst, if_neg hn]
      exact h
    | setActive active => exact { h with highlighted := rfl }
    | setEnvironment environment => exact { h with environment := rfl }
  | some c =>
    have hs : r.captured.isSome := by simp [hc]
    have ha : i.state = .active := h.captured_isSome.mp hs
    cases op with
    | mount icons surroundings =>
      have hn : i.state ≠ .unmounted := by simp [ha]
      have hr : r.step (.mount icons surroundings) = r := by simp [ItemInputs.step, hc]
      rw [Item.step, mount_of_ne_unmounted hn, hr]
      exact h
    | unmount =>
      rw [Item.step, unmount_of_active ha]
      exact h.unmounted hs
    | apply trigger =>
      rw [Item.step, apply_fst, if_pos ha]
      exact h.stored_active hs trigger
    | click =>
      rw [Item.step, click_fst, if_pos ha]
      exact h.refreshScope hs
    | setActive active => exact { h with highlighted := rfl }
    | setEnvironment environment => exact { h with environment := rfl }

/-- An item as it is made, before any operation. -/
def fresh (definition : ModuleDefinition) (context : ItemContext) (cache : TemplateCache)
    (clicks keys : Bool) : Item :=
  (create definition context cache).1.withHandlers clicks keys

section

variable (definition : ModuleDefinition) (context : ItemContext) (cache : TemplateCache)
  (clicks keys : Bool)

theorem fresh_reflects :
    Reflects context.translations (ItemInputs.initial context.environment)
      (fresh definition context cache clicks keys) where
  translations := rfl
  environment := rfl
  state := rfl
  icons := rfl
  window := rfl
  vars := rfl
  highlighted := rfl
  sorted := Dict.sorted_nil
  written := fun h => by simp [ItemInputs.initial] at h
  scope := fun h => by simp [ItemInputs.initial] at h
  left := fun _ _ _ => rfl

theorem run_reflects (ops : List ItemOp) :
    Reflects context.translations (ItemInputs.after context.environment ops)
      ((fresh definition context cache clicks keys).run ops) := by
  induction ops using List.reverseRecOn with
  | nil => exact fresh_reflects definition context cache clicks keys
  | append_singleton ops op ih =>
    have ha : ItemInputs.after context.environment (ops ++ [op]) =
        (ItemInputs.after context.environment ops).step op := by
      simp [ItemInputs.after, List.foldl_append]
    rw [run_append_singleton, ha]
    exact ih.step op

end

/-- Two active items of one make that hold the same show the same. -/
theorem Reflects.render_eq {r' : ItemInputs} {j : Item} (h : Reflects t r i) (h' : Reflects t r' j)
    (hsetup : i.setup = j.setup) (hi : i.state = .active) (hj : j.state = .active)
    (hl : SameLatest r r') (hkeys : ∀ key, r.lookup? t key = r'.lookup? t key) :
    i.render.2 = j.render.2 := by
  have hr := h.refreshScope (h.captured_isSome.mpr hi)
  have hr' := h'.refreshScope (h'.captured_isSome.mpr hj)
  have hscope : i.refreshScope.scope = j.refreshScope.scope := by
    apply Dict.ext hr.sorted hr'.sorted
    intro key
    rw [hr.scope (h.captured_isSome.mpr hi), hr'.scope (h'.captured_isSome.mpr hj), hkeys]
  have hactive : i.refreshScope.active = j.refreshScope.active := by
    rw [hr.highlighted, hr'.highlighted, hl.highlighted]
  have hicons : i.refreshScope.icons = j.refreshScope.icons := by
    rw [hr.icons, hr'.icons, hl.captured]
  have hview : ∀ icons, i.refreshScope.view icons = j.refreshScope.view icons :=
    view_congr (by rw [setup_refreshScope, setup_refreshScope, hsetup]) hscope hactive
  simp only [render, hi, hj, if_true, hicons, funext hview]

/-- While an item is active, each name of its scope has the value that the last extra variables, the
last refresh, the earlier extra variables of this mount, its captures or the extra variables of
earlier mounts give it, in this order. If no name was dropped from the extra variables, the scope is
the reserved names overlaid by the last ones; and runs with the same latest inputs show the same if
nothing was dropped in either, or if the same values were left. -/
theorem scope_of_active (definition : ModuleDefinition) (context : ItemContext)
    (cache : TemplateCache) (clicks keys : Bool) (ops : List ItemOp)
    (hactive : ((fresh definition context cache clicks keys).run ops).state = .active) :
    (∀ key, Dict.get? ((fresh definition context cache clicks keys).run ops).scope key =
      (after context.environment ops).lookup? context.translations key) ∧
    ((after context.environment ops).NothingDropped → ∀ key,
      Dict.get? ((fresh definition context cache clicks keys).run ops).scope key =
        (after context.environment ops).latest? context.translations key) ∧
    ∀ ops' : List ItemOp,
      ((fresh definition context cache clicks keys).run ops').state = .active →
      SameLatest (after context.environment ops) (after context.environment ops') →
      SameLeftovers (after context.environment ops) (after context.environment ops') ∨
        ((after context.environment ops).NothingDropped ∧
          (after context.environment ops').NothingDropped) →
      ((fresh definition context cache clicks keys).run ops).render.2 =
        ((fresh definition context cache clicks keys).run ops').render.2 := by
  have h := run_reflects definition context cache clicks keys ops
  have hscope := h.scope (h.captured_isSome.mpr hactive)
  refine ⟨hscope, ?_, ?_⟩
  · intro hd key
    rw [hscope, lookup?_eq_latest? hd]
  · intro ops' hactive' hlatest hleft
    have h' := run_reflects definition context cache clicks keys ops'
    have hsetup : ((fresh definition context cache clicks keys).run ops).setup =
        ((fresh definition context cache clicks keys).run ops').setup := by
      rw [run_setup, run_setup]
    exact h.render_eq h' hsetup hactive hactive' hlatest
      (lookup?_congr hlatest hleft context.translations)

/-- An item that shows a notice handed to it, and the surroundings it is used in. -/
def notice : Item :=
  fresh { id := "a", template := "note" } ⟨[], {}, some [], true⟩ (.empty 64) false false

/-- Mounted and handed one notice after the other. -/
def handed (notices : List (Dict ItemValue)) : List ItemOp :=
  .mount ⟨[]⟩ [] :: notices.map fun vars => .apply (.varsChanged vars)

theorem nothingDropped_of_notes (notices : List (Dict ItemValue))
    (hn : ∀ vars ∈ notices, vars = [] ∨ ∃ v, vars = [("note", v)]) {r : ItemInputs} {v : ItemValue}
    (hv : r.vars = [("note", v)]) (hr : r.written ++ r.former = notices) : r.NothingDropped := by
  intro vars hm key
  rw [hr] at hm
  rw [hv]
  rcases hn vars hm with rfl | ⟨w, rfl⟩
  · simp [Dict.ofList]
  · by_cases hk : "note" = key <;> simp [Dict.ofList, Dict.insert, Dict.get?, hk]

/-- A notice that took the place of another one is shown as if it had been the only one. -/
theorem scope_of_active_replaced :
    (notice.run (handed [[("note", .string "y")], [("note", .string "x")]])).state = .active ∧
    (∀ key,
      Dict.get? (notice.run (handed [[("note", .string "y")], [("note", .string "x")]])).scope key =
        (after (some []) (handed [[("note", .string "y")], [("note", .string "x")]])).latest? []
          key) ∧
    (notice.run (handed [[("note", .string "y")], [("note", .string "x")]])).render.2 =
      (notice.run (handed [[("note", .string "x")]])).render.2 := by
  have h := scope_of_active { id := "a", template := "note" } ⟨[], {}, some [], true⟩ (.empty 64)
    false false (handed [[("note", .string "y")], [("note", .string "x")]]) rfl
  have hy : (after (some [])
      (handed [[("note", .string "y")], [("note", .string "x")]])).NothingDropped :=
    nothingDropped_of_notes [[("note", .string "x")], [("note", .string "y")], []] (by simp) rfl rfl
  have hx : (after (some []) (handed [[("note", .string "x")]])).NothingDropped :=
    nothingDropped_of_notes [[("note", .string "x")], []] (by simp) rfl rfl
  exact ⟨rfl, h.2.1 hy, h.2.2 _ rfl ⟨rfl, rfl, rfl, rfl⟩ (Or.inr ⟨hy, hx⟩)⟩

/-- Two notices, one of them under a reserved name, and both withdrawn. -/
def withdrawn : List ItemOp := handed [[("icon", .string "i"), ("note", .string "x")], []]

theorem parse_note : Template.Expr.parse "note" 64 = .ok (.name "note") := by
  have h : (match Template.Expr.parse "note" 64 with
      | .ok (.name n) => n == "note"
      | _ => false) = true := by decide +kernel
  split at h
  · next n hn => rw [hn, beq_iff_eq.mp h]
  · cases h

/-- A withdrawn notice is still shown, and a reserved name that it hid stays hidden, while the item
that never had it shows nothing. -/
theorem dropped_variables_stay :
    (notice.run withdrawn).state = .active ∧
    SameLatest (after (some []) withdrawn) (after (some []) (handed [])) ∧
    (Dict.get? (notice.run withdrawn).scope "note" = some (.string "x") ∧
      (after (some []) withdrawn).latest? [] "note" = none) ∧
    (Dict.get? (notice.run withdrawn).scope "icon" = some (.string "i") ∧
      (after (some []) withdrawn).latest? [] "icon" = some (.object [])) ∧
    (notice.run withdrawn).render.2.map (·.content) = some [.text "x"] ∧
    (notice.run (handed [])).render.2 = none := by
  refine ⟨rfl, ⟨rfl, rfl, rfl, rfl⟩, ⟨rfl, rfl⟩, ⟨rfl, rfl⟩, ?_⟩
  have hb : Text.isAllBlank "note" = false := by decide +kernel
  have hn : notice =
      { definition := { id := "a", template := "note" }
        content := some ⟨"note", .name "note"⟩
        tooltip := none
        onClick := none
        context := ⟨[], {}, some [], true⟩
        lifecycle := .initial
        scope := []
        icons := none
        window := none
        extraVars := []
        active := false
        hasClickHandler := false
        hasKeyHandler := false } := by
    simp only [notice, fresh, withHandlers, create, compileSource, TemplateCache.compile,
      TemplateCache.empty, Dict.get?, CompiledTemplate.compile, parse_note, hb, Except.toOption,
      Bool.false_eq_true, if_false]
  rw [hn]
  decide +kernel

end Item
end TemplateBar
