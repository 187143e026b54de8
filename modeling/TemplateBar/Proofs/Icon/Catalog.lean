import TemplateBar.Icon.Catalog
import TemplateBar.Proofs.Dict

/-!
# Reachable catalogs

The catalogs that registrations and snapshots lead to. Every name in one is an icon name, and a
kept view is a view of the catalog as it is, so a snapshot always shows the registered glyphs.
-/
namespace TemplateBar.IconCatalog

/-- The catalogs that come about. -/
inductive Reachable : IconCatalog → Prop
  | empty : Reachable empty
  | register {c c' : IconCatalog} {name glyph : String} (prior : Reachable c)
      (accepted : c.register name glyph = .ok c') : Reachable c'
  | snapshot {c : IconCatalog} (prior : Reachable c) : Reachable c.snapshot.2

theorem register_eq_ok {c c' : IconCatalog} {name glyph : String}
    (h : c.register name glyph = .ok c') :
    isIconName name = true ∧ c' = ⟨Dict.insert c.glyphs name glyph, none⟩ := by
  unfold register at h
  split at h
  · rename_i hname
    exact ⟨hname, (Except.ok.inj h).symm⟩
  · simp at h

theorem glyphs_snapshot (c : IconCatalog) : c.snapshot.2.glyphs = c.glyphs := by
  unfold snapshot
  split <;> rfl

theorem mem_keys_insert {α : Type} {d : Dict α} {key name : String} {value : α}
    (h : name ∈ Dict.keys (Dict.insert d key value)) : name = key ∨ name ∈ Dict.keys d := by
  obtain ⟨e, he, rfl⟩ := List.mem_map.mp h
  rcases Dict.mem_insert he with rfl | he
  · exact Or.inl rfl
  · exact Or.inr (List.mem_map.mpr ⟨e, he, rfl⟩)

theorem Reachable.isIconName {c : IconCatalog} (h : Reachable c) :
    ∀ name ∈ Dict.keys c.glyphs, isIconName name = true := by
  induction h with
  | empty => simp [IconCatalog.empty, Dict.keys]
  | register prior accepted ih =>
    obtain ⟨hname, rfl⟩ := register_eq_ok accepted
    intro name hmem
    rcases mem_keys_insert hmem with rfl | hmem
    · exact hname
    · exact ih name hmem
  | @snapshot c prior ih =>
    rwa [c.glyphs_snapshot]

theorem Reachable.cached {c : IconCatalog} (h : Reachable c) :
    ∀ v ∈ c.cached, v.glyphs = c.glyphs := by
  induction h with
  | empty => simp [IconCatalog.empty]
  | register prior accepted ih =>
    obtain ⟨-, rfl⟩ := register_eq_ok accepted
    simp
  | @snapshot c prior ih =>
    unfold IconCatalog.snapshot
    split
    · rename_i v hv
      exact ih
    · simp

/-- A snapshot shows the catalog as it is, kept or not. -/
theorem Reachable.snapshot_glyphs {c : IconCatalog} (h : Reachable c) :
    c.snapshot.1.glyphs = c.glyphs := by
  unfold IconCatalog.snapshot
  split
  · rename_i v hv
    exact h.cached v hv
  · rfl

theorem Reachable.names {c : IconCatalog} (h : Reachable c) :
    ∀ name ∈ c.snapshot.1.names, TemplateBar.isIconName name = true := by
  unfold IconView.names
  rw [h.snapshot_glyphs]
  exact h.isIconName

end TemplateBar.IconCatalog
