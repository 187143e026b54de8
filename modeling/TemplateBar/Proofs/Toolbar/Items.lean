import Mathlib.Data.List.Nodup
import TemplateBar.Proofs.Template.Cache
import TemplateBar.Proofs.Toolbar.Operation

/-!
# The items of a toolbar

What the operations of a toolbar do to the list of its items. Distinct ids make an operation on the
item with an id an operation on one item, and items that are whole between operations make mounting
and unmounting all of them succeed. A new item does not depend on what the cache has compiled.
-/
namespace TemplateBar

namespace Item

theorem compileSource_fst {cache : TemplateCache} (h : cache.Faithful) (source : Option String) :
    (compileSource cache source).1 =
      (compileSource (.empty cache.maxDepth) source).1 := by
  cases source with
  | none => rfl
  | some s =>
    have he := (TemplateCache.faithful_empty cache.maxDepth).compile_fst s
    simp only [compileSource]
    split
    · rfl
    · rw [h.compile_fst, he]
      rfl

theorem compileSource_snd {cache : TemplateCache} (h : cache.Faithful) (source : Option String) :
    (compileSource cache source).2.Faithful ∧
      (compileSource cache source).2.maxDepth = cache.maxDepth := by
  cases source with
  | none => exact ⟨h, rfl⟩
  | some s =>
    simp only [compileSource]
    split
    · exact ⟨h, rfl⟩
    · exact ⟨h.compile_snd s, cache.compile_maxDepth s⟩

theorem create_snd (definition : ModuleDefinition) (context : ItemContext) {cache : TemplateCache}
    (h : cache.Faithful) :
    (create definition context cache).2.Faithful ∧
      (create definition context cache).2.maxDepth = cache.maxDepth := by
  obtain ⟨h₁, d₁⟩ := compileSource_snd h (some definition.template)
  obtain ⟨h₂, d₂⟩ := compileSource_snd h₁ definition.tooltip
  obtain ⟨h₃, d₃⟩ := compileSource_snd h₂ definition.onClick
  exact ⟨h₃, d₃.trans (d₂.trans d₁)⟩

/-- Which sources a cache has seen makes no difference to a new item. -/
theorem create_fst_congr (definition : ModuleDefinition) (context : ItemContext)
    {cache cache' : TemplateCache} (h : cache.Faithful) (h' : cache'.Faithful)
    (hd : cache.maxDepth = cache'.maxDepth) :
    (create definition context cache).1 = (create definition context cache').1 := by
  obtain ⟨h₁, d₁⟩ := compileSource_snd h (some definition.template)
  obtain ⟨h₂, d₂⟩ := compileSource_snd h₁ definition.tooltip
  obtain ⟨h₁', d₁'⟩ := compileSource_snd h' (some definition.template)
  obtain ⟨h₂', d₂'⟩ := compileSource_snd h₁' definition.tooltip
  simp only [create]
  rw [compileSource_fst h, compileSource_fst h', compileSource_fst h₁, compileSource_fst h₁',
    compileSource_fst h₂, compileSource_fst h₂', d₂, d₂', d₁, d₁', hd]

end Item

namespace BarItem

theorem create_fst (definition : ModuleDefinition) (context : ItemContext) (cache : TemplateCache) :
    (create definition context cache).1 =
      match definition.kind with
      | .generic => generic (Item.create definition context cache).1
      | .settings => settings (.create (Item.create definition context cache).1) := by
  unfold create
  cases definition.kind <;> rfl

theorem create_snd (definition : ModuleDefinition) (context : ItemContext) (cache : TemplateCache) :
    (create definition context cache).2 = (Item.create definition context cache).2 := by
  unfold create
  cases definition.kind <;> rfl

theorem create_item (definition : ModuleDefinition) (context : ItemContext)
    (cache : TemplateCache) :
    (create definition context cache).1.item = (Item.create definition context cache).1 := by
  rw [create_fst]
  cases definition.kind <;> rfl

@[simp] theorem create_id (definition : ModuleDefinition) (context : ItemContext)
    (cache : TemplateCache) : (create definition context cache).1.id = definition.id := by
  rw [id, create_item]
  rfl

theorem coherent_create (definition : ModuleDefinition) (context : ItemContext)
    (cache : TemplateCache) : (create definition context cache).1.item.Coherent := by
  rw [create_item]
  exact Item.coherent_of_initial rfl rfl

theorem create_fst_congr (definition : ModuleDefinition) (context : ItemContext)
    {cache cache' : TemplateCache} (h : cache.Faithful) (h' : cache'.Faithful)
    (hd : cache.maxDepth = cache'.maxDepth) :
    (create definition context cache).1 = (create definition context cache').1 := by
  rw [create_fst, create_fst, Item.create_fst_congr definition context h h' hd]

/-- Items with an id of their own each. -/
def Distinct (bs : List BarItem) : Prop := (bs.map id).Nodup

theorem Distinct.eq {bs : List BarItem} (h : Distinct bs) {b b' : BarItem} (hb : b ∈ bs)
    (hb' : b' ∈ bs) (hid : b'.id = b.id) : b' = b :=
  List.inj_on_of_nodup_map h hb' hb hid

theorem Distinct.find?_eq_some_iff {bs : List BarItem} (h : Distinct bs) {id : String}
    {b : BarItem} : (bs.find? fun b => b.id == id) = some b ↔ b ∈ bs ∧ b.id = id := by
  constructor
  · intro hf
    exact ⟨List.mem_of_find?_eq_some hf, by simpa using List.find?_some hf⟩
  · rintro ⟨hb, rfl⟩
    cases hf : bs.find? fun b' => b'.id == b.id with
    | none => exact absurd (List.find?_eq_none.mp hf b hb) (by simp)
    | some b' =>
      have hid : b'.id = b.id := by simpa using List.find?_some hf
      rw [h.eq hb (List.mem_of_find?_eq_some hf) hid]

/-- What only one item contributes. -/
theorem Distinct.flatMap_eq {α : Type} {bs : List BarItem} (h : Distinct bs) {b : BarItem}
    (hb : b ∈ bs) {f : BarItem → List α} (hf : ∀ b' ∈ bs, b'.id ≠ b.id → f b' = []) :
    bs.flatMap f = f b := by
  induction bs with
  | nil => cases hb
  | cons a bs ih =>
    obtain ⟨ha, hbs⟩ := List.nodup_cons.mp h
    rw [List.flatMap_cons]
    rcases List.mem_cons.mp hb with rfl | hb
    · have hrest : bs.flatMap f = [] := by
        refine List.flatMap_eq_nil_iff.mpr fun b' hb' => hf b' (List.mem_cons_of_mem _ hb') ?_
        intro hid
        exact ha (List.mem_map.mpr ⟨b', hb', hid⟩)
      rw [hrest, List.append_nil]
    · have hne : a.id ≠ b.id := fun hid => ha (List.mem_map.mpr ⟨b, hb, hid.symm⟩)
      rw [hf a List.mem_cons_self hne, List.nil_append]
      exact ih hbs hb fun b' hb' => hf b' (List.mem_cons_of_mem _ hb')

theorem mount_result_of_unmounted {b : BarItem} (h : b.state = .unmounted) (icons : IconView)
    (surroundings : Dict String) : (b.mount icons surroundings).2.1 = .ok () := by
  cases b with
  | generic i => exact congrArg (·.2) (Item.mount_of_unmounted h icons surroundings)
  | settings s =>
    exact (s.mount_result icons surroundings).trans
      (congrArg (·.2) (Item.mount_of_unmounted h icons surroundings))

theorem unmount_result_of_active {b : BarItem} (h : b.state = .active) :
    b.unmount.2 = .ok () := by
  cases b with
  | generic i => exact congrArg (·.2) (Item.unmount_of_active h)
  | settings s => exact congrArg (·.2) (Item.unmount_of_active (i := s.item) h)

end BarItem

namespace Toolbar

theorem mountItems_eq (icons : IconView) (surroundings : Dict String) (bs : List BarItem) :
    mountItems icons surroundings bs =
      (bs.map fun b =>
          if b.state = .unmounted then (b.mount icons surroundings).1 else b,
        .ok (),
        bs.flatMap fun b =>
          if b.state = .unmounted then (b.mount icons surroundings).2.2 else []) := by
  induction bs with
  | nil => rfl
  | cons b bs ih =>
    unfold mountItems
    by_cases hu : b.state = .unmounted
    · have hr := BarItem.mount_result_of_unmounted hu icons surroundings
      rcases hm : b.mount icons surroundings with ⟨b', r, tasks⟩
      rw [hm] at hr
      subst hr
      simp [hu, hm, ih]
    · simp [hu, ih]

theorem unmountItems_eq {bs : List BarItem} (h : ∀ b ∈ bs, b.item.Coherent) :
    unmountItems bs =
      (bs.map fun b => if b.state = .unmounted then b else b.unmount.1, .ok ()) := by
  induction bs with
  | nil => rfl
  | cons b bs ih =>
    have hbs := ih fun b' hb' => h b' (List.mem_cons_of_mem _ hb')
    unfold unmountItems
    by_cases hu : b.state = .unmounted
    · simp [hu, hbs]
    · have hr := BarItem.unmount_result_of_active ((h b List.mem_cons_self).active_of_ne hu)
      rcases hm : b.unmount with ⟨b', r⟩
      rw [hm] at hr
      subst hr
      simp [hu, hm, hbs]

theorem takeOut_perm {id : String} {bs rest : List BarItem} {b : BarItem}
    (h : takeOut id bs = some (b, rest)) : (b :: rest).Perm bs := by
  induction bs generalizing rest with
  | nil => cases h
  | cons a bs ih =>
    unfold takeOut at h
    split at h
    · obtain ⟨rfl, rfl⟩ := Prod.mk.inj (Option.some.inj h)
      exact List.Perm.refl _
    · obtain ⟨⟨b', rest'⟩, ht, he⟩ := Option.map_eq_some_iff.mp h
      obtain ⟨rfl, rfl⟩ := Prod.mk.inj he
      exact (List.Perm.swap a b' rest').trans ((ih ht).cons a)

theorem reorderItems_perm (ids : List String) (bs : List BarItem) :
    (reorderItems ids bs).Perm bs := by
  induction ids generalizing bs with
  | nil => exact List.Perm.refl _
  | cons id ids ih =>
    unfold reorderItems
    split
    · next b rest ht => exact ((ih rest).cons b).trans (takeOut_perm ht)
    · exact ih bs

theorem takeOut_map {f : BarItem → BarItem} (hf : ∀ b, (f b).id = b.id) (id : String)
    (bs : List BarItem) :
    takeOut id (bs.map f) = (takeOut id bs).map fun r => (f r.1, r.2.map f) := by
  induction bs with
  | nil => rfl
  | cons b bs ih =>
    rw [List.map_cons, takeOut, takeOut, hf, ih]
    split
    · rfl
    · cases takeOut id bs <;> rfl

/-- Only ids matter for the order. -/
theorem reorderItems_map {f : BarItem → BarItem} (hf : ∀ b, (f b).id = b.id) (ids : List String)
    (bs : List BarItem) : reorderItems ids (bs.map f) = (reorderItems ids bs).map f := by
  induction ids generalizing bs with
  | nil => rfl
  | cons id ids ih =>
    rw [reorderItems, reorderItems, takeOut_map hf]
    cases takeOut id bs with
    | none => exact ih bs
    | some r => exact congrArg (f r.1 :: ·) (ih r.2)

/-- With distinct ids, putting one changed item in its place changes no other. -/
theorem modify_congr {t : Toolbar} (h : BarItem.Distinct t.items) {id : String} {b : BarItem}
    (hb : t.get? id = some b) {f : BarItem → BarItem} :
    (t.modify id fun _ => f b) = t.modify id f := by
  obtain ⟨hmem, hid⟩ := h.find?_eq_some_iff.mp hb
  simp only [modify, Toolbar.mk.injEq, and_true]
  refine List.map_congr_left fun b' hb' => ?_
  split
  · next hb'id => rw [h.eq hmem hb' (hb'id.trans hid.symm)]
  · rfl

end Toolbar
end TemplateBar
