import Mathlib.Data.Finset.Card
import TemplateBar.Template.Compiled
import TemplateBar.Proofs.Dict

/-!
# Faithful caches

A cache that started empty answers every source with what compiling it on its own gives, whichever
sources were asked for before and whether they compiled or not. It holds one entry for each source
that it was asked for.
-/
namespace TemplateBar.TemplateCache

/-- Every entry is what compiling its source gives. -/
def Faithful (c : TemplateCache) : Prop :=
  ∀ source r, Dict.get? c.entries source = some r → r = CompiledTemplate.compile source c.maxDepth

variable {c : TemplateCache}

theorem faithful_empty (maxDepth : Nat) : (empty maxDepth).Faithful := by
  intro source r h
  cases h

@[simp] theorem compile_maxDepth (c : TemplateCache) (source : String) :
    (c.compile source).2.maxDepth = c.maxDepth := by
  unfold compile
  split <;> rfl

theorem Faithful.compile_fst (h : c.Faithful) (source : String) :
    (c.compile source).1 = CompiledTemplate.compile source c.maxDepth := by
  unfold compile
  split
  · next r hr => exact h source r hr
  · rfl

theorem Faithful.compile_snd (h : c.Faithful) (source : String) :
    (c.compile source).2.Faithful := by
  unfold compile
  split
  · exact h
  · intro other r hr
    rw [Dict.get?_insert] at hr
    split at hr
    · next hs =>
      subst hs
      exact (Option.some.inj hr).symm
    · exact h other r hr

/-- The sources in a cache are those that were asked for. -/
structure Remembers (c : TemplateCache) (asked : List String) : Prop where
  sorted : Dict.Sorted c.entries
  mem_keys : ∀ source, source ∈ Dict.keys c.entries ↔ source ∈ asked

theorem remembers_empty (maxDepth : Nat) : (empty maxDepth).Remembers [] :=
  ⟨Dict.sorted_nil, fun _ => Iff.rfl⟩

theorem Remembers.compile {asked : List String} (h : c.Remembers asked) (source : String) :
    (c.compile source).2.Remembers (asked ++ [source]) := by
  unfold TemplateCache.compile
  split
  · next r hr =>
    have known : source ∈ asked := (h.mem_keys source).mp (Dict.mem_keys_iff.mpr (by simp [hr]))
    refine ⟨h.sorted, fun other => ?_⟩
    rw [h.mem_keys, List.mem_append, List.mem_singleton]
    exact ⟨Or.inl, fun ho => ho.elim id fun eq => eq ▸ known⟩
  · refine ⟨Dict.sorted_insert h.sorted _ _, fun other => ?_⟩
    rw [Dict.mem_keys_iff, Dict.get?_insert, List.mem_append, List.mem_singleton, ← h.mem_keys,
      Dict.mem_keys_iff]
    split
    · next same => simp [same]
    · next differs => simp [Ne.symm differs]

theorem Remembers.size_eq {asked : List String} (h : c.Remembers asked) :
    c.size = asked.toFinset.card := by
  have nodup : (Dict.keys c.entries).Nodup :=
    List.Pairwise.map _ (fun _ _ lt => lt.ne) h.sorted
  have same : (Dict.keys c.entries).toFinset = asked.toFinset := by
    ext source
    rw [List.mem_toFinset, List.mem_toFinset, h.mem_keys]
  rw [← same, List.toFinset_card_of_nodup nodup, Dict.keys, List.length_map, size]

/-- The cache after sources were asked for, one after the other. -/
def after (c : TemplateCache) (sources : List String) : TemplateCache :=
  sources.foldl (fun c source => (c.compile source).2) c

theorem after_append_singleton (c : TemplateCache) (sources : List String) (source : String) :
    c.after (sources ++ [source]) = ((c.after sources).compile source).2 := by
  simp [after, List.foldl_append]

@[simp] theorem after_maxDepth (c : TemplateCache) (sources : List String) :
    (c.after sources).maxDepth = c.maxDepth := by
  induction sources using List.reverseRecOn with
  | nil => rfl
  | append_singleton sources source ih => rw [after_append_singleton, compile_maxDepth, ih]

theorem Faithful.after (h : c.Faithful) (sources : List String) : (c.after sources).Faithful := by
  induction sources using List.reverseRecOn with
  | nil => exact h
  | append_singleton sources source ih =>
    rw [after_append_singleton]
    exact ih.compile_snd source

theorem Remembers.after {asked : List String} (h : c.Remembers asked) (sources : List String) :
    (c.after sources).Remembers (asked ++ sources) := by
  induction sources using List.reverseRecOn with
  | nil => rwa [List.append_nil]
  | append_singleton sources source ih =>
    rw [after_append_singleton, ← List.append_assoc]
    exact ih.compile source

/-- Whatever was asked for before, each answer is what compiling the source on its own gives, and
the size is the number of different sources asked for. -/
theorem compile_after (maxDepth : Nat) (sources : List String) :
    (∀ source, (((empty maxDepth).after sources).compile source).1 =
      CompiledTemplate.compile source maxDepth) ∧
    ((empty maxDepth).after sources).size = sources.toFinset.card := by
  have faithful := (faithful_empty maxDepth).after sources
  refine ⟨fun source => ?_, ((remembers_empty maxDepth).after sources).size_eq⟩
  rw [faithful.compile_fst, after_maxDepth]
  rfl

end TemplateBar.TemplateCache
