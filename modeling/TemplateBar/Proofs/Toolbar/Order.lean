import TemplateBar.Proofs.Toolbar.Soundness

/-!
# Ids and the order of items

A valid configuration is one whose ids are not blank and distinct and whose budgets are positive,
and exactly such a configuration makes a toolbar, with its items in the order of the configuration.
Whatever happens to a toolbar, ids stay distinct, so putting the items into another order is a
stable permutation: the listed ones first, and the rest as it was.
-/
namespace TemplateBar

/-! ## Valid configurations -/

namespace BarConfig

theorem firstBadId_eq_none_iff (seen : List String) (ms : List ModuleDefinition) :
    firstBadId seen ms = none ↔ (∀ m ∈ ms, Text.isAllBlank m.id = false) ∧
      (ms.map (·.id)).Nodup ∧ ∀ m ∈ ms, m.id ∉ seen := by
  induction ms generalizing seen with
  | nil => simp [firstBadId]
  | cons m ms ih =>
    unfold firstBadId
    split
    · next blank => simp [blank]
    · split
      · next named => simp [named]
      · next visible fresh =>
        have apart : (∀ m' ∈ ms, m'.id ∉ m.id :: seen) ↔
            (∀ m' ∈ ms, m'.id ≠ m.id) ∧ ∀ m' ∈ ms, m'.id ∉ seen := by
          simp only [List.mem_cons, not_or, forall_and]
        rw [ih, apart]
        simp [visible, fresh]
        tauto

theorem validate_eq_ok_iff (c : BarConfig) :
    c.validate = .ok () ↔ (∀ m ∈ c.modules, Text.isAllBlank m.id = false) ∧
      (c.modules.map (·.id)).Nodup ∧ 0 < c.limits.maxSteps ∧ 0 < c.limits.maxDepth := by
  have ids := firstBadId_eq_none_iff [] c.modules
  simp only [List.not_mem_nil, not_false_eq_true, implies_true, and_true] at ids
  rw [← and_assoc, ← ids]
  unfold validate
  cases firstBadId [] c.modules with
  | some cause => simp
  | none =>
    simp only [true_and]
    split <;> simp <;> omega

end BarConfig

namespace Toolbar

theorem push_of_not_mem {t : Toolbar} {definition : ModuleDefinition} (h : definition.id ∉ t.ids) :
    t.push definition = .ok { t with
      items := t.items ++ [(BarItem.create definition t.context t.cache).1]
      cache := (BarItem.create definition t.context t.cache).2 } := by
  simp only [push, h, if_false]

theorem push_of_mem {t : Toolbar} {definition : ModuleDefinition} (h : definition.id ∈ t.ids) :
    t.push definition = .error (.config (.duplicateModuleId definition.id)) := by
  simp only [push, h, if_true]

/-- The item of a module as it is before anything happens to it. -/
def newItem (context : ItemContext) (definition : ModuleDefinition) : BarItem :=
  (BarItem.create definition context (.empty context.limits.maxDepth)).1

/-- New items under new ids are appended in order, whatever the cache has compiled. -/
theorem foldlM_push {ms : List ModuleDefinition} {t : Toolbar} (faithful : t.cache.Faithful)
    (depth : t.cache.maxDepth = t.context.limits.maxDepth)
    (nodup : (t.ids ++ ms.map (·.id)).Nodup) :
    ∃ cache, ms.foldlM push t =
      .ok { t with items := t.items ++ ms.map (newItem t.context), cache } := by
  induction ms generalizing t with
  | nil => exact ⟨t.cache, by simp; rfl⟩
  | cons m ms ih =>
    have fresh : m.id ∉ t.ids := fun named =>
      (List.nodup_append.mp nodup).2.2 _ named _ List.mem_cons_self rfl
    obtain ⟨faithful', depth'⟩ := Item.create_snd m t.context faithful
    rw [← BarItem.create_snd] at faithful' depth'
    have created : (BarItem.create m t.context t.cache).1 = newItem t.context m :=
      BarItem.create_fst_congr m t.context faithful (TemplateCache.faithful_empty _) depth
    obtain ⟨cache, pushed⟩ := ih (t := { t with
      items := t.items ++ [(BarItem.create m t.context t.cache).1]
      cache := (BarItem.create m t.context t.cache).2 }) faithful' (depth'.trans depth)
      (by simpa [ids] using nodup)
    refine ⟨cache, ?_⟩
    rw [List.foldlM_cons, push_of_not_mem fresh]
    refine pushed.trans ?_
    simp [created]

section

variable {config : BarConfig} {spawns : Bool}

/-- A valid configuration has a toolbar, whose items are those of the modules, in order. -/
theorem exists_ofConfig (valid : config.validate = .ok ()) (spawns : Bool) :
    ∃ t, ofConfig config spawns = .ok t ∧ t.items = config.modules.map
      (newItem ⟨config.translations, config.limits, none, spawns⟩) := by
  obtain ⟨-, nodup, -⟩ := config.validate_eq_ok_iff.mp valid
  let t := empty ⟨config.translations, config.limits, none, spawns⟩ (.ofConfig config.icons)
  have fresh : (t.ids ++ config.modules.map (·.id)).Nodup := nodup
  obtain ⟨cache, pushed⟩ := foldlM_push (TemplateCache.faithful_empty _) rfl fresh
  simp only [ofConfig, valid]
  exact ⟨_, pushed, rfl⟩

theorem validate_of_ofConfig {t : Toolbar} (made : ofConfig config spawns = .ok t) :
    config.validate = .ok () := by
  cases valid : config.validate with
  | error e =>
    simp only [ofConfig, valid] at made
    cases made
  | ok => rfl

end

/-! ## Another order -/

/-- The items with the listed ids, in the order in which these are listed first, and then all
others, in the order in which they are. -/
def listedFirst (ids : List String) (bs : List BarItem) : List BarItem :=
  ids.eraseDups.filterMap (fun id => bs.find? fun b => b.id == id) ++
    bs.filter fun b => b.id ∉ ids

end Toolbar

theorem eraseDups_filter {α : Type} [DecidableEq α] (p : α → Bool) (l : List α) :
    (l.filter p).eraseDups = l.eraseDups.filter p := by
  match l with
  | [] => rfl
  | a :: l =>
    have shorter : (l.filter fun b => !b == a).length < (a :: l).length :=
      Nat.lt_succ_of_le (List.length_filter_le _ l)
    have ih := eraseDups_filter p (l.filter fun b => !b == a)
    rw [List.eraseDups_cons, List.filter_cons, List.filter_cons, ← ih]
    cases kept : p a with
    | true =>
      have order : (fun b => !b == a && p b) = fun b => p b && !b == a :=
        funext fun b => Bool.and_comm _ _
      simp only [if_true, List.eraseDups_cons, List.filter_filter, order]
    | false =>
      simp only [Bool.false_eq_true, if_false, List.filter_filter]
      congr 1
      refine List.filter_congr fun b _ => ?_
      by_cases same : b = a
      · simp [same, kept]
      · simp [same]
termination_by l.length
decreasing_by exact shorter

namespace Toolbar

variable {bs : List BarItem}

theorem takeOut_eq_none {id : String} (h : ∀ b ∈ bs, b.id ≠ id) : takeOut id bs = none := by
  induction bs with
  | nil => rfl
  | cons a bs ih =>
    rw [takeOut, if_neg (h a List.mem_cons_self), ih fun b hb => h b (List.mem_cons_of_mem a hb)]
    rfl

/-- With distinct ids, taking an item out leaves all others. -/
theorem takeOut_of_mem (distinct : BarItem.Distinct bs) {b : BarItem} (h : b ∈ bs) :
    takeOut b.id bs = some (b, bs.filter fun b' => b'.id ≠ b.id) := by
  induction bs with
  | nil => cases h
  | cons a bs ih =>
    obtain ⟨new, rest⟩ := List.nodup_cons.mp distinct
    by_cases same : a.id = b.id
    · obtain rfl := distinct.eq h List.mem_cons_self same
      have others : ∀ b' ∈ bs, b'.id ≠ a.id := fun b' hb' named =>
        new (List.mem_map.mpr ⟨b', hb', named⟩)
      rw [takeOut, if_pos rfl, List.filter_cons, List.filter_eq_self.mpr (by simpa using others)]
      simp
    · have later : b ∈ bs := (List.mem_cons.mp h).resolve_left fun eq => same (eq ▸ rfl)
      rw [takeOut, if_neg same, ih rest later]
      simp [same]

theorem find?_filter_ne (id id' : String) :
    (bs.filter fun b => b.id ≠ id).find? (fun b => b.id == id') =
      if id' = id then none else bs.find? fun b => b.id == id' := by
  rw [List.find?_filter]
  split
  · next same =>
    subst same
    simp
  · next other =>
    congr 1
    funext b
    by_cases named : b.id = id'
    · simp [named, other]
    · simp [named]

/-- Listing among the items without an id is listing without that id. -/
theorem listedFirst_filter_ne (id : String) (ids : List String) :
    listedFirst ids (bs.filter fun b => b.id ≠ id) =
      (ids.eraseDups.filter fun id' => !id' == id).filterMap
          (fun id' => bs.find? fun b => b.id == id') ++
        bs.filter fun b => b.id ∉ id :: ids := by
  rw [listedFirst, List.filter_filter, List.filterMap_filter]
  congr 1
  · refine List.filterMap_congr fun id' _ => ?_
    rw [find?_filter_ne]
    by_cases same : id' = id <;> simp [same]
  · refine List.filter_congr fun b _ => ?_
    simp [Bool.and_comm]

theorem reorderItems_eq (distinct : BarItem.Distinct bs) (ids : List String) :
    reorderItems ids bs = listedFirst ids bs := by
  induction ids generalizing bs with
  | nil => simp [reorderItems, listedFirst]
  | cons id ids ih =>
    rw [listedFirst, List.eraseDups_cons, eraseDups_filter, List.filterMap_cons]
    cases found : bs.find? fun b => b.id == id with
    | none =>
      have absent : ∀ b ∈ bs, b.id ≠ id := by simpa using found
      have same : (bs.filter fun b => b.id ≠ id) = bs :=
        List.filter_eq_self.mpr (by simpa using absent)
      simp only [reorderItems, takeOut_eq_none absent]
      rw [ih distinct, ← listedFirst_filter_ne, same]
    | some b =>
      obtain ⟨present, rfl⟩ := distinct.find?_eq_some_iff.mp found
      have others : BarItem.Distinct (bs.filter fun b' => b'.id ≠ b.id) :=
        distinct.sublist (List.filter_sublist.map _)
      simp only [reorderItems, takeOut_of_mem distinct present]
      rw [ih others, listedFirst_filter_ne, List.cons_append]

theorem mem_listedFirst_front {ids : List String} {b : BarItem}
    (h : b ∈ ids.eraseDups.filterMap fun id => bs.find? fun b => b.id == id) : b.id ∈ ids := by
  obtain ⟨id, listed, found⟩ := List.mem_filterMap.mp h
  obtain rfl : b.id = id := by simpa using List.find?_some found
  exact List.mem_eraseDups.mp listed

/-- Items that are in the listed order already stay in it. -/
theorem listedFirst_idem (distinct : BarItem.Distinct bs) (ids : List String) :
    listedFirst ids (listedFirst ids bs) = listedFirst ids bs := by
  have perm : (listedFirst ids bs).Perm bs :=
    reorderItems_eq distinct ids ▸ reorderItems_perm ids bs
  have distinct' : BarItem.Distinct (listedFirst ids bs) :=
    (perm.map BarItem.id).nodup_iff.mpr distinct
  have found (id : String) : ((listedFirst ids bs).find? fun b => b.id == id) =
      bs.find? fun b => b.id == id := by
    ext b
    rw [distinct'.find?_eq_some_iff, distinct.find?_eq_some_iff, perm.mem_iff]
  have front : ((ids.eraseDups.filterMap fun id => bs.find? fun b => b.id == id).filter
      fun b => b.id ∉ ids) = [] := by
    refine List.filter_eq_nil_iff.mpr fun b hb => ?_
    simpa using mem_listedFirst_front hb
  have rest : ((listedFirst ids bs).filter fun b => b.id ∉ ids) =
      bs.filter fun b => b.id ∉ ids := by
    rw [listedFirst, List.filter_append, front, List.nil_append, List.filter_filter]
    simp only [Bool.and_self]
  conv_lhs => rw [listedFirst, rest]
  simp only [found]
  rfl

end Toolbar

/-! ## Toolbars that come about -/

/-- A toolbar of a configuration, or one without items. -/
inductive Toolbar.Initial : Toolbar → Prop
  | ofConfig {config : BarConfig} {spawns : Bool} {t : Toolbar}
    (h : Toolbar.ofConfig config spawns = .ok t) : Initial t
  | empty (context : ItemContext) {catalog : IconCatalog} (h : catalog.Reachable) :
    Initial (.empty context catalog)

namespace Session

/-- A session in which nothing has happened yet. -/
def of (t : Toolbar) (host : Host) : Session := ⟨t, host, [], []⟩

theorem Sound.of {s : Session} (h : s.Sound) (host : Host) : (of s.bar host).Sound where
  distinct := h.distinct
  coherent := h.coherent
  catalog := h.catalog
  cache := h.cache
  depth := h.depth
  owned := fun p hp => by cases hp
  owners := fun p hp => by cases hp
  seen := fun e he => by cases he

theorem sound_of_initial {t : Toolbar} (h : t.Initial) (host : Host) : (of t host).Sound := by
  cases h with
  | ofConfig made =>
    rw [← run_of_ofConfig made host]
    exact ((sound_start _ host).run _).of host
  | empty context reachable =>
    exact
      { distinct := List.nodup_nil
        coherent := fun b hb => by cases hb
        catalog := reachable
        cache := TemplateCache.faithful_empty _
        depth := rfl
        owned := fun p hp => by cases hp
        owners := fun p hp => by cases hp
        seen := fun e he => by cases he }

/-- A session that some operations on a new toolbar lead to. -/
def Arises (s : Session) : Prop :=
  ∃ (t : Toolbar) (host : Host) (ops : List BarOp), t.Initial ∧ (of t host).run ops = s

theorem Arises.sound {s : Session} (h : s.Arises) : s.Sound := by
  obtain ⟨t, host, ops, initial, rfl⟩ := h
  exact (sound_of_initial initial host).run ops

/-- Exactly the valid configurations make a toolbar, with the items in their order. From there, or
from a toolbar without items, and whatever is done: no two items have the same id; a new item with
an id that is there is refused and nothing changes; and another order keeps all items as they are,
those with the listed ids first, and changes nothing when it is asked for again. -/
theorem order_of_items :
    (∀ config : BarConfig, config.validate = .ok () ↔
      (∀ m ∈ config.modules, Text.isAllBlank m.id = false) ∧ (config.modules.map (·.id)).Nodup ∧
        0 < config.limits.maxSteps ∧ 0 < config.limits.maxDepth) ∧
    (∀ config spawns, (∃ t, Toolbar.ofConfig config spawns = .ok t) ↔ config.validate = .ok ()) ∧
    (∀ config spawns t, Toolbar.ofConfig config spawns = .ok t → t.items = config.modules.map
      (Toolbar.newItem ⟨config.translations, config.limits, none, spawns⟩)) ∧
    ∀ s : Session, s.Arises → s.bar.ids.Nodup ∧
      (∀ definition, definition.id ∈ s.bar.ids →
        s.bar.push definition = .error (.config (.duplicateModuleId definition.id)) ∧
        s.step (.push definition) = s) ∧
      ∀ ids,
        s.bar.reorder ids = { s.bar with items := Toolbar.listedFirst ids s.bar.items } ∧
        (Toolbar.listedFirst ids s.bar.items).Perm s.bar.items ∧
        (s.bar.reorder ids).reorder ids = s.bar.reorder ids ∧
        s.step (.reorder ids) = { s with bar := s.bar.reorder ids } := by
  refine ⟨BarConfig.validate_eq_ok_iff, fun config spawns => ?_, fun config spawns t made => ?_,
    fun s arises => ?_⟩
  · constructor
    · rintro ⟨t, made⟩
      exact Toolbar.validate_of_ofConfig made
    · intro valid
      obtain ⟨t, made, -⟩ := Toolbar.exists_ofConfig valid spawns
      exact ⟨t, made⟩
  · obtain ⟨t', made', items⟩ := Toolbar.exists_ofConfig (Toolbar.validate_of_ofConfig made) spawns
    rw [made'] at made
    obtain rfl := Except.ok.inj made
    exact items
  · have distinct := arises.sound.distinct
    have ordered (ids : List String) := Toolbar.reorderItems_eq distinct ids
    refine ⟨distinct, fun definition named => ⟨Toolbar.push_of_mem named,
      step_push_of_mem named⟩, fun ids => ⟨?_, ?_, ?_, rfl⟩⟩
    · rw [Toolbar.reorder, ordered]
    · exact ordered ids ▸ Toolbar.reorderItems_perm ids s.bar.items
    · have distinct' : BarItem.Distinct (Toolbar.reorderItems ids s.bar.items) :=
        (arises.sound.reorder ids).distinct
      have again : Toolbar.reorderItems ids (Toolbar.reorderItems ids s.bar.items) =
          Toolbar.reorderItems ids s.bar.items := by
        rw [Toolbar.reorderItems_eq distinct', ordered, Toolbar.listedFirst_idem distinct]
      simp only [Toolbar.reorder, again]

/-- Three items of which the last is listed twice, and an id that no item has. -/
theorem order_of_three_items :
    let context : ItemContext := ⟨[], {}, none, false⟩
    let s := (of (.empty context .empty) ⟨none, none, []⟩).run
      [.push { id := "a", template := "1" }, .push { id := "b", template := "(" }, .apply .refresh,
        .push { id := "c", template := "2" }, .mountAll [], .push { id := "a", template := "3" }]
    s.bar.ids = ["a", "b", "c"] ∧ (s.bar.reorder ["c", "d", "c", "a"]).ids = ["c", "a", "b"] ∧
      ((s.bar.reorder ["c", "d", "c", "a"]).items).Perm s.bar.items := by
  intro context s
  have arises : s.Arises := ⟨_, _, _, .empty context .empty, rfl⟩
  obtain ⟨-, -, -, kept⟩ := order_of_items
  obtain ⟨-, -, order⟩ := kept s arises
  obtain ⟨eq, perm, -⟩ := order ["c", "d", "c", "a"]
  refine ⟨by decide +kernel, by decide +kernel, ?_⟩
  rw [eq]
  exact perm

end Session

end TemplateBar
