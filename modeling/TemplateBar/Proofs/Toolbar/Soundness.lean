import TemplateBar.Proofs.Toolbar.Session

/-!
# The invariant of sessions

Whatever is done, the items of a toolbar keep ids of their own and are whole between operations, the
shared cache and catalog stay faithful, and every pending task and every event belongs to an item
that is there.
-/
namespace TemplateBar

namespace BarOp

/-- The context of new items after an operation. -/
def contextAfter (op : BarOp) (context : ItemContext) : ItemContext :=
  match op with
  | .withEnvironment environment => { context with environment := some environment }
  | _ => context

/-- The registered glyphs after an operation. -/
def glyphsAfter (op : BarOp) (glyphs : Dict String) : Dict String :=
  match op with
  | .registerIcon name glyph => if isIconName name then Dict.insert glyphs name glyph else glyphs
  | _ => glyphs

/-- What the host answers after an operation. -/
def answersAfter (op : BarOp) (answers : Option Brightness × Option HostScript) :
    Option Brightness × Option HostScript :=
  match op with
  | .answerWith brightness script => (brightness, script)
  | _ => answers

@[simp] theorem contextAfter_limits (op : BarOp) (context : ItemContext) :
    (op.contextAfter context).limits = context.limits := by
  cases op <;> rfl

@[simp] theorem contextAfter_spawns (op : BarOp) (context : ItemContext) :
    (op.contextAfter context).spawns = context.spawns := by
  cases op <;> rfl

end BarOp

namespace IconCatalog

theorem register_glyphs (c : IconCatalog) (name glyph : String) :
    ((c.register name glyph).toOption.getD c).glyphs =
      if isIconName name then Dict.insert c.glyphs name glyph else c.glyphs := by
  unfold register
  split <;> rfl

theorem Reachable.register_getD {c : IconCatalog} (h : c.Reachable) (name glyph : String) :
    ((c.register name glyph).toOption.getD c).Reachable := by
  cases hr : c.register name glyph with
  | error e => exact h
  | ok c' => exact h.register hr

end IconCatalog

/-- All that the host's answers depend on. -/
def Host.answers (h : Host) : Option Brightness × Option HostScript := (h.brightness, h.script)

namespace Toolbar

theorem registerIcon_catalog (t : Toolbar) (name glyph : String) :
    ((t.registerIcon name glyph).toOption.getD t).catalog =
      (t.catalog.register name glyph).toOption.getD t.catalog := by
  unfold registerIcon
  cases t.catalog.register name glyph <;> rfl

theorem runTask_snd (t : Toolbar) (host : Host) (task : HostTask) :
    (t.runTask host task).2 = { host with calls := host.calls ++ [task.hostCall] } := by
  cases task <;> rfl

theorem runTask_items (t : Toolbar) (host : Host) {p : LeftTask} (hp : p.Owned) :
    (t.runTask host p.task).1 = t.modify p.owner fun b => (b.runTask host p.task).1 := by
  obtain ⟨owner, task⟩ := p
  cases task with
  | call c =>
    have hitems : (t.items.map fun b => if b.id = owner then b else b) = t.items := by simp
    change t = { t with items := t.items.map fun b => if b.id = owner then b else b }
    rw [hitems]
  | queryBrightness id ticket =>
    obtain rfl : id = owner := hp id ticket rfl
    rfl

end Toolbar

namespace Session

variable {s : Session} {n : Nat} {p : LeftTask}

theorem runTask_of_none (h : s.pending[n]? = none) : s.runTask n = s := by
  simp only [runTask, h]

theorem runTask_of_some (h : s.pending[n]? = some p) (hp : p.Owned) :
    s.runTask n =
      { bar := s.bar.modify p.owner fun b => (b.runTask s.host p.task).1
        host := { s.host with calls := s.host.calls ++ [p.task.hostCall] }
        pending := s.pending.eraseIdx n
        events := s.events ++ [(p.owner, .called p.task.hostCall)] } := by
  simp only [runTask, h]
  rw [Toolbar.runTask_items s.bar s.host hp, Toolbar.runTask_snd]
  simp [Host.callsSince]

theorem step_push_of_mem {definition : ModuleDefinition} (h : definition.id ∈ s.bar.ids) :
    s.step (.push definition) = s := by
  simp only [step, Toolbar.push, h, if_true]
  rfl

theorem step_push_of_not_mem {definition : ModuleDefinition} (h : definition.id ∉ s.bar.ids) :
    s.step (.push definition) =
      { s with
        bar := { s.bar with
          items := s.bar.items ++ [(BarItem.create definition s.bar.context s.bar.cache).1]
          cache := (BarItem.create definition s.bar.context s.bar.cache).2 } } := by
  simp only [step, Toolbar.push, h, if_false]
  rfl

/-- What an operation does to a session apart from its items. -/
structure Frame (s s' : Session) (op : BarOp) : Prop where
  context : s'.bar.context = op.contextAfter s.bar.context
  glyphs : s'.bar.catalog.glyphs = op.glyphsAfter s.bar.catalog.glyphs
  catalog : s.bar.catalog.Reachable → s'.bar.catalog.Reachable
  answers : s'.host.answers = op.answersAfter s.host.answers
  /-- Only new items touch the cache. -/
  cache : op.IsSpread → s'.bar.cache = s.bar.cache
  /-- Only tasks call the host. -/
  calls : op.IsSpread → s'.host.calls = s.host.calls

theorem step_frame (s : Session) (op : BarOp) : Frame s (s.step op) op := by
  have hkept {op : BarOp} (hc : op.contextAfter s.bar.context = s.bar.context)
      (hg : op.glyphsAfter s.bar.catalog.glyphs = s.bar.catalog.glyphs)
      (ha : op.answersAfter s.host.answers = s.host.answers) : Frame s s op :=
    ⟨hc.symm, hg.symm, fun h => h, ha.symm, fun _ => rfl, fun _ => rfl⟩
  cases op with
  | push definition =>
    by_cases hd : definition.id ∈ s.bar.ids
    · rw [step_push_of_mem hd]
      exact hkept rfl rfl rfl
    · rw [step_push_of_not_mem hd]
      exact ⟨rfl, rfl, fun h => h, rfl, False.elim, False.elim⟩
  | mountAll surroundings =>
    exact ⟨rfl, s.bar.catalog.glyphs_snapshot, .snapshot, rfl, fun _ => rfl, fun _ => rfl⟩
  | click id =>
    simp only [step, record, Toolbar.click]
    split <;> exact ⟨rfl, rfl, fun h => h, rfl, fun _ => rfl, fun _ => rfl⟩
  | item id op =>
    simp only [step, actOn]
    split
    · exact hkept rfl rfl rfl
    · exact ⟨rfl, s.bar.catalog.glyphs_snapshot, .snapshot, rfl, fun _ => rfl, fun _ => rfl⟩
  | registerIcon name glyph =>
    have hcatalog : (s.step (.registerIcon name glyph)).bar.catalog =
        (s.bar.catalog.register name glyph).toOption.getD s.bar.catalog :=
      s.bar.registerIcon_catalog name glyph
    have hcache : (s.step (.registerIcon name glyph)).bar.cache = s.bar.cache ∧
        (s.step (.registerIcon name glyph)).bar.context = s.bar.context := by
      simp only [step, Toolbar.registerIcon]
      cases s.bar.catalog.register name glyph <;> exact ⟨rfl, rfl⟩
    refine ⟨hcache.2, ?_, ?_, rfl, fun _ => hcache.1, fun _ => rfl⟩
    · rw [hcatalog, s.bar.catalog.register_glyphs]
      rfl
    · rw [hcatalog]
      exact fun h => h.register_getD name glyph
  | runTask n =>
    simp only [step, runTask]
    split
    · exact hkept rfl rfl rfl
    · next p hp =>
      cases p.task <;> exact ⟨rfl, rfl, fun h => h, rfl, False.elim, False.elim⟩
  | _ => exact ⟨rfl, rfl, fun h => h, rfl, fun _ => rfl, fun _ => rfl⟩

theorem Spread.ids {s' : Session} {op : BarOp} (h : Spread s s' (s.reaction op)) :
    s'.bar.ids = s.bar.ids := by
  rw [Toolbar.ids, Toolbar.ids, h.items, List.map_map]
  exact List.map_congr_left fun b _ => b.react_id s.icons (op.reaching b)

theorem Sound.step_spread_sound (h : s.Sound) {op : BarOp} (hop : op.IsSpread) :
    (s.step op).Sound := by
  have hs := step_spread h hop
  have hf := s.step_frame op
  have hcache := hf.cache hop
  have hlimits : (s.step op).bar.context.limits = s.bar.context.limits := by
    rw [hf.context, BarOp.contextAfter_limits]
  have hids : (s.step op).bar.ids = s.bar.ids := hs.ids
  refine
    { distinct := ?_
      coherent := ?_
      catalog := hf.catalog h.catalog
      cache := hcache ▸ h.cache
      depth := by rw [hcache, hlimits, h.depth]
      owned := ?_
      owners := ?_
      seen := ?_ }
  · exact (congrArg List.Nodup hids).mpr h.distinct
  · intro b hb
    rw [hs.items] at hb
    obtain ⟨b', hb', rfl⟩ := List.mem_map.mp hb
    exact BarItem.coherent_react (h.coherent b' hb') s.icons (op.reaching b')
  · intro p hp
    rw [hs.pending] at hp
    rcases List.mem_append.mp hp with hp | hp
    · exact h.owned p hp
    · obtain ⟨b, -, hp⟩ := List.mem_flatMap.mp hp
      obtain ⟨task, htask, rfl⟩ := List.mem_map.mp hp
      exact BarItem.owned_react htask
  · intro p hp
    rw [hids]
    rw [hs.pending] at hp
    rcases List.mem_append.mp hp with hp | hp
    · exact h.owners p hp
    · obtain ⟨b, hb, hp⟩ := List.mem_flatMap.mp hp
      obtain ⟨task, -, rfl⟩ := List.mem_map.mp hp
      exact List.mem_map_of_mem hb
  · intro e he
    rw [hids]
    rw [hs.events] at he
    rcases List.mem_append.mp he with he | he
    · exact h.seen e he
    · obtain ⟨b, hb, he⟩ := List.mem_flatMap.mp he
      obtain ⟨event, -, rfl⟩ := List.mem_map.mp he
      exact List.mem_map_of_mem hb

theorem Sound.push (h : s.Sound) (definition : ModuleDefinition) :
    (s.step (.push definition)).Sound := by
  by_cases hd : definition.id ∈ s.bar.ids
  · rwa [step_push_of_mem hd]
  rw [step_push_of_not_mem hd]
  obtain ⟨hcache, hdepth⟩ := Item.create_snd definition s.bar.context h.cache
  rw [← BarItem.create_snd] at hcache hdepth
  have hids (id : String) (hid : id ∈ s.bar.ids) :
      id ∈ (s.bar.items ++ [(BarItem.create definition s.bar.context s.bar.cache).1]).map
        BarItem.id := by
    rw [List.map_append]
    exact List.mem_append_left _ hid
  exact
    { distinct := by
        rw [BarItem.Distinct, List.map_append]
        refine List.nodup_append.mpr ⟨h.distinct, by simp, ?_⟩
        rintro id hid _ hnew rfl
        simp only [List.map_cons, List.map_nil, List.mem_singleton, BarItem.create_id] at hnew
        exact hd (hnew ▸ hid)
      coherent := by
        intro b hb
        rcases List.mem_append.mp hb with hb | hb
        · exact h.coherent b hb
        · rw [List.mem_singleton.mp hb]
          exact BarItem.coherent_create definition s.bar.context s.bar.cache
      catalog := h.catalog
      cache := hcache
      depth := hdepth.trans h.depth
      owned := h.owned
      owners := fun p hp => hids _ (h.owners p hp)
      seen := fun e he => hids _ (h.seen e he) }

theorem Sound.reorder (h : s.Sound) (ids : List String) : (s.step (.reorder ids)).Sound := by
  have hp := Toolbar.reorderItems_perm ids s.bar.items
  have hids : (s.step (.reorder ids)).bar.ids.Perm s.bar.ids := hp.map BarItem.id
  exact
    { distinct := hids.nodup_iff.mpr h.distinct
      coherent := fun b hb => h.coherent b (hp.mem_iff.mp hb)
      catalog := h.catalog
      cache := h.cache
      depth := h.depth
      owned := h.owned
      owners := fun p hp => hids.mem_iff.mpr (h.owners p hp)
      seen := fun e he => hids.mem_iff.mpr (h.seen e he) }

theorem ids_runTask (h : s.Sound) (n : Nat) : (s.runTask n).bar.ids = s.bar.ids := by
  cases hn : s.pending[n]? with
  | none => rw [runTask_of_none hn]
  | some p =>
    rw [runTask_of_some hn (h.owned p (List.mem_of_getElem? hn)), Toolbar.ids, Toolbar.ids,
      Toolbar.modify, List.map_map]
    refine List.map_congr_left fun b _ => ?_
    change BarItem.id (if b.id = p.owner then _ else b) = b.id
    split
    · exact b.runTask_id s.host p.task
    · rfl

theorem Sound.runTask (h : s.Sound) (n : Nat) : (s.runTask n).Sound := by
  cases hn : s.pending[n]? with
  | none => rwa [runTask_of_none hn]
  | some p =>
    have hp := List.mem_of_getElem? hn
    have hids := ids_runTask h n
    refine
      { distinct := (congrArg List.Nodup hids).mpr h.distinct
        coherent := ?_
        catalog := (s.step_frame (.runTask n)).catalog h.catalog
        cache := ?_
        depth := ?_
        owned := ?_
        owners := ?_
        seen := ?_ }
    · intro b hb
      rw [runTask_of_some hn (h.owned p hp)] at hb
      obtain ⟨b', hb', rfl⟩ := List.mem_map.mp hb
      split
      · rw [BarItem.runTask_item]
        exact h.coherent b' hb'
      · exact h.coherent b' hb'
    · rw [runTask_of_some hn (h.owned p hp)]
      exact h.cache
    · rw [runTask_of_some hn (h.owned p hp)]
      exact h.depth
    · rw [runTask_of_some hn (h.owned p hp)]
      exact fun q hq => h.owned q (List.mem_of_mem_eraseIdx hq)
    · rw [hids, runTask_of_some hn (h.owned p hp)]
      exact fun q hq => h.owners q (List.mem_of_mem_eraseIdx hq)
    · rw [hids, runTask_of_some hn (h.owned p hp)]
      intro e he
      rcases List.mem_append.mp he with he | he
      · exact h.seen e he
      · rw [List.mem_singleton.mp he]
        exact h.owners p hp

theorem Sound.step (h : s.Sound) (op : BarOp) : (s.step op).Sound := by
  cases op with
  | push definition => exact h.push definition
  | reorder ids => exact h.reorder ids
  | runTask n => exact h.runTask n
  | _ => exact h.step_spread_sound trivial

/-- An item was there, and an operation reached it or not, or it is new under a new id. -/
theorem mem_items_step (h : s.Sound) {op : BarOp} {b : BarItem}
    (hb : b ∈ (s.step op).bar.items) :
    (∃ b' ∈ s.bar.items, b.item = (b'.react s.icons (op.reaching b')).item.item) ∨
      ∃ definition, definition.id ∉ s.bar.ids ∧
        b = (BarItem.create definition s.bar.context s.bar.cache).1 := by
  by_cases hop : op.IsSpread
  · rw [(step_spread h hop).items] at hb
    obtain ⟨b', hb', rfl⟩ := List.mem_map.mp hb
    exact Or.inl ⟨b', hb', rfl⟩
  cases op with
  | push definition =>
    by_cases hd : definition.id ∈ s.bar.ids
    · rw [step_push_of_mem hd] at hb
      exact Or.inl ⟨b, hb, rfl⟩
    · rw [step_push_of_not_mem hd] at hb
      rcases List.mem_append.mp hb with hb | hb
      · exact Or.inl ⟨b, hb, rfl⟩
      · exact Or.inr ⟨definition, hd, List.mem_singleton.mp hb⟩
  | reorder ids =>
    exact Or.inl ⟨b, (Toolbar.reorderItems_perm ids s.bar.items).mem_iff.mp hb, rfl⟩
  | runTask n =>
    change b ∈ (s.runTask n).bar.items at hb
    cases hn : s.pending[n]? with
    | none =>
      rw [runTask_of_none hn] at hb
      exact Or.inl ⟨b, hb, rfl⟩
    | some p =>
      rw [runTask_of_some hn (h.owned p (List.mem_of_getElem? hn))] at hb
      obtain ⟨b', hb', rfl⟩ := List.mem_map.mp hb
      refine Or.inl ⟨b', hb', ?_⟩
      split
      · exact b'.runTask_item s.host p.task
      · rfl
  | _ => exact absurd trivial hop

/-- No item leaves. -/
theorem mem_ids_step (h : s.Sound) {id : String} (hid : id ∈ s.bar.ids) (op : BarOp) :
    id ∈ (s.step op).bar.ids := by
  by_cases hop : op.IsSpread
  · rwa [(step_spread h hop).ids]
  cases op with
  | push definition =>
    by_cases hd : definition.id ∈ s.bar.ids
    · rwa [step_push_of_mem hd]
    · rw [step_push_of_not_mem hd, Toolbar.ids, List.map_append]
      exact List.mem_append_left _ hid
  | reorder ids =>
    exact ((Toolbar.reorderItems_perm ids s.bar.items).map BarItem.id).mem_iff.mpr hid
  | runTask n => exact (ids_runTask h n).symm ▸ hid
  | _ => exact absurd trivial hop

theorem Sound.run (h : s.Sound) (ops : List BarOp) : (s.run ops).Sound := by
  induction ops generalizing s with
  | nil => exact h
  | cons op ops ih => exact ih (h.step op)

/-- A mount captures the glyphs that are registered. -/
theorem Sound.icons_eq (h : s.Sound) : s.icons = ⟨s.bar.catalog.glyphs⟩ := by
  have hg : s.icons.glyphs = s.bar.catalog.glyphs := h.catalog.snapshot_glyphs
  rw [← hg]

theorem mem_ids_run (h : s.Sound) {id : String} (hid : id ∈ s.bar.ids) (ops : List BarOp) :
    id ∈ (s.run ops).bar.ids := by
  induction ops generalizing s with
  | nil => exact hid
  | cons op ops ih => exact ih (h.step op) (mem_ids_step h hid op)

theorem sound_start (context : ItemContext) (host : Host) : (start context host).Sound where
  distinct := List.nodup_nil
  coherent := fun b hb => by cases hb
  catalog := .empty
  cache := TemplateCache.faithful_empty _
  depth := rfl
  owned := fun p hp => by cases hp
  owners := fun p hp => by cases hp
  seen := fun e he => by cases he

theorem run_registrations (s : Session) (icons : List (String × String)) :
    s.run (icons.map fun e => .registerIcon e.1 e.2) =
      { s with bar := { s.bar with catalog := s.bar.catalog.registerAll icons } } := by
  induction icons generalizing s with
  | nil => rfl
  | cons e icons ih =>
    have hstep : s.step (.registerIcon e.1 e.2) = { s with bar := { s.bar with
        catalog := (s.bar.catalog.register e.1 e.2).toOption.getD s.bar.catalog } } := by
      simp only [step, Toolbar.registerIcon]
      cases s.bar.catalog.register e.1 e.2 <;> rfl
    rw [List.map_cons, run_cons, ih, hstep]
    rfl

theorem run_pushes {s : Session} {definitions : List ModuleDefinition} {t : Toolbar}
    (h : definitions.foldlM Toolbar.push s.bar = .ok t) :
    s.run (definitions.map .push) = { s with bar := t } := by
  induction definitions generalizing s with
  | nil =>
    obtain rfl : s.bar = t := Except.ok.inj h
    rfl
  | cons definition definitions ih =>
    rw [List.foldlM_cons] at h
    cases hp : s.bar.push definition with
    | error e =>
      rw [hp] at h
      cases h
    | ok bar =>
      rw [hp] at h
      have hstep : s.step (.push definition) = { s with bar } := by
        simp only [step, hp]
        rfl
      rw [List.map_cons, run_cons, hstep]
      exact ih (s := { s with bar }) h

/-- The toolbar of a configuration is one that registrations and new items lead to. -/
theorem run_of_ofConfig {config : BarConfig} {spawns : Bool} {t : Toolbar}
    (h : Toolbar.ofConfig config spawns = .ok t) (host : Host) :
    ((start ⟨config.translations, config.limits, none, spawns⟩ host).run
      ((IconCatalog.defaultIcons ++ config.icons).map (fun e => .registerIcon e.1 e.2) ++
        config.modules.map .push)).bar = t := by
  unfold Toolbar.ofConfig at h
  cases hv : config.validate with
  | error e =>
    rw [hv] at h
    cases h
  | ok u =>
    rw [hv] at h
    have hicons : IconCatalog.empty.registerAll (IconCatalog.defaultIcons ++ config.icons) =
        IconCatalog.ofConfig config.icons := List.foldl_append
    rw [run_append, run_registrations, run_pushes (t := t)]
    change config.modules.foldlM Toolbar.push
      (.empty _ (IconCatalog.empty.registerAll (IconCatalog.defaultIcons ++ config.icons))) = _
    rw [hicons]
    exact h

end Session
end TemplateBar
