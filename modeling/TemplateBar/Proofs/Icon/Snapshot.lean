import TemplateBar.Proofs.Icon.Split

/-!
# Snapshots of a shared catalog

All clones of a catalog share its state, and a clone takes its snapshot in two parts: it looks
for the kept view, and only if there is none it builds one, after whatever the other clones did in
between. In every interleaving a view shows the registrations before it was handed out, the last
one under each name, and no later operation touches it. The pattern of every view is taken to
compile, so that building one never fails.
-/
namespace TemplateBar

/-- A view of a map from names to glyphs: it lists the names in order and sees each one's glyph,
offers each name as its own member, and cuts texts at references to these names. -/
structure IconView.Shows (v : IconView) (glyphs : String → Option String) : Prop where
  glyph : ∀ name, v.glyph? name = glyphs name
  sorted : v.names.Pairwise (· < ·)
  names : ∀ name, name ∈ v.names ↔ (glyphs name).isSome = true
  scope : ∀ F : Type,
    (v.scopeValue : Template.Value F) = .object (v.names.map fun n => (n, .string n))
  split : ∀ text tokens, v.splitText text = tokens ↔
    IsSplit (v.names.map String.toList) text.toList tokens

namespace IconCatalog

theorem Reachable.sorted {c : IconCatalog} (h : Reachable c) : Dict.Sorted c.glyphs := by
  induction h with
  | empty => exact Dict.sorted_nil
  | register prior accepted ih =>
    obtain ⟨-, rfl⟩ := register_eq_ok accepted
    exact Dict.sorted_insert ih _ _
  | @snapshot c prior ih => rwa [c.glyphs_snapshot]

/-- A view of what a catalog holds shows it, wherever the view comes from. -/
theorem Reachable.shows {c : IconCatalog} (h : Reachable c) {v : IconView}
    (hv : v.glyphs = c.glyphs) : v.Shows (Dict.get? c.glyphs) where
  glyph name := by rw [IconView.glyph?, hv]
  sorted := by
    rw [IconView.names, hv]
    exact List.pairwise_map.mpr h.sorted
  names name := by rw [IconView.names, hv, Dict.mem_keys_iff]
  scope F := by simp [IconView.scopeValue, IconView.names, Dict.keys, Function.comp_def]
  split text tokens := by
    have named : ∀ n ∈ v.searchOrder, IsNameLike n := by
      intro n hn
      obtain ⟨name, hname, rfl⟩ := List.mem_map.mp ((IconView.mem_searchOrder v n).mp hn)
      rw [IconView.names, hv] at hname
      exact isNameLike_of_isIconName (h.isIconName name hname)
    have cut := (IconView.isSplit_tokensFrom named text.toList).congr (IconView.mem_searchOrder v)
    constructor
    · rintro rfl
      exact cut
    · exact cut.unique

/-! ## Operations of the clones -/

/-- What a clone of the catalog does. Clones are told apart by numbers. -/
inductive Op where
  | register (clone : Nat) (name glyph : String)
  /-- A snapshot that no other operation comes in between of. -/
  | snapshot (clone : Nat)
  /-- The first part of a snapshot: take the kept view, if there is one. -/
  | look (clone : Nat)
  /-- The second part of a snapshot, if the first part found nothing. -/
  | build (clone : Nat)
  | glyph (clone : Nat) (name : String)
  | names (clone : Nat)
  deriving DecidableEq, Repr

inductive Answer where
  | done
  | rejected (e : BarError)
  | view (v : IconView)
  | waiting
  | glyph (g : Option String)
  | names (ns : List String)
  deriving DecidableEq, Repr

/-- The state that the clones share, the clones in the middle of a snapshot, and the views that
were handed out. -/
structure Shared where
  catalog : IconCatalog
  waiting : List Nat
  views : List IconView
  deriving DecidableEq, Repr

namespace Shared

def empty : Shared := ⟨.empty, [], []⟩

def handOut (s : Shared) : Shared × Answer :=
  (⟨s.catalog.snapshot.2, s.waiting, s.views ++ [s.catalog.snapshot.1]⟩,
    .view s.catalog.snapshot.1)

def act (s : Shared) : Op → Shared × Answer
  | .register _ name glyph =>
    match s.catalog.register name glyph with
    | .ok c => (⟨c, s.waiting, s.views⟩, .done)
    | .error e => (s, .rejected e)
  | .snapshot _ => s.handOut
  | .look clone =>
    match s.catalog.cached with
    | some v => (⟨s.catalog, s.waiting, s.views ++ [v]⟩, .view v)
    | none => (⟨s.catalog, clone :: s.waiting, s.views⟩, .waiting)
  | .build clone =>
    if clone ∈ s.waiting then handOut ⟨s.catalog, s.waiting.erase clone, s.views⟩ else (s, .done)
  | .glyph _ name => (s, .glyph (Dict.get? s.catalog.glyphs name))
  | .names _ => (s, .names (Dict.keys s.catalog.glyphs))

def step (s : Shared) (op : Op) : Shared := (s.act op).1

def answer (s : Shared) (op : Op) : Answer := (s.act op).2

def run (s : Shared) (ops : List Op) : Shared := ops.foldl step s

end Shared

/-- The glyph that an operation registers under a name. -/
def Op.glyphFor (name : String) : Op → Option String
  | register _ n g => if isIconName n = true ∧ n = name then some g else none
  | _ => none

/-- The glyph that the last of the accepted registrations gave a name. -/
def registered (ops : List Op) (name : String) : Option String :=
  ops.reverse.findSome? (Op.glyphFor name)

theorem registered_append_singleton (ops : List Op) (op : Op) (name : String) :
    registered (ops ++ [op]) name = (op.glyphFor name).or (registered ops name) := by
  simp only [registered, List.reverse_append, List.reverse_singleton, List.singleton_append,
    List.findSome?_cons]
  cases op.glyphFor name <;> rfl

/-! ## One step -/

namespace Shared

variable {s : Shared} {op : Op}

theorem register_of_not_isIconName {name glyph : String} (h : isIconName name = false)
    (clone : Nat) : s.act (.register clone name glyph) =
      (s, .rejected (.config (.invalidIconName name))) := by
  simp [act, IconCatalog.register, h]

theorem register_of_isIconName {name glyph : String} (h : isIconName name = true) (clone : Nat) :
    s.act (.register clone name glyph) =
      (⟨⟨Dict.insert s.catalog.glyphs name glyph, none⟩, s.waiting, s.views⟩, .done) := by
  simp [act, IconCatalog.register, h]

/-- What a step does to the catalog and to the views: it registers a glyph, hands out one more
view, which is the snapshot of the catalog, or leaves both alone. -/
theorem step_cases (s : Shared) (op : Op) :
    (∃ clone name glyph, op = .register clone name glyph ∧ isIconName name = true ∧
      (s.step op).catalog = ⟨Dict.insert s.catalog.glyphs name glyph, none⟩ ∧
      (s.step op).views = s.views ∧ s.answer op = .done) ∨
    (s.answer op = .view s.catalog.snapshot.1 ∧ (s.step op).catalog = s.catalog.snapshot.2 ∧
      (s.step op).views = s.views ++ [s.catalog.snapshot.1] ∧ ∀ name, op.glyphFor name = none) ∨
    ((∀ v, s.answer op ≠ .view v) ∧ (s.step op).catalog = s.catalog ∧
      (s.step op).views = s.views ∧ ∀ name, op.glyphFor name = none) := by
  cases op with
  | register clone name glyph =>
    cases valid : isIconName name with
    | true =>
      exact .inl ⟨clone, name, glyph, rfl, valid,
        by simp [step, answer, register_of_isIconName valid]⟩
    | false =>
      exact .inr (.inr
        (by simp [step, answer, register_of_not_isIconName valid, Op.glyphFor, valid]))
  | snapshot clone => exact .inr (.inl (by simp [step, answer, act, handOut, Op.glyphFor]))
  | look clone =>
    cases kept : s.catalog.cached with
    | some v =>
      exact .inr (.inl (by simp [step, answer, act, kept, IconCatalog.snapshot, Op.glyphFor]))
    | none => exact .inr (.inr (by simp [step, answer, act, kept, Op.glyphFor]))
  | build clone =>
    by_cases waits : clone ∈ s.waiting
    · exact .inr (.inl (by simp [step, answer, act, waits, handOut, Op.glyphFor]))
    · exact .inr (.inr (by simp [step, answer, act, waits, Op.glyphFor]))
  | glyph clone name => exact .inr (.inr (by simp [step, answer, act, Op.glyphFor]))
  | names clone => exact .inr (.inr (by simp [step, answer, act, Op.glyphFor]))

theorem reachable_step (h : s.catalog.Reachable) (op : Op) : (s.step op).catalog.Reachable := by
  rcases step_cases s op with ⟨clone, name, glyph, -, valid, hc, -⟩ | ⟨-, hc, -⟩ | ⟨-, hc, -⟩
  · rw [hc]
    exact h.register (by rw [IconCatalog.register, if_pos valid])
  · rw [hc]
    exact h.snapshot
  · rwa [hc]

theorem get?_step (s : Shared) (op : Op) (name : String) :
    Dict.get? (s.step op).catalog.glyphs name =
      (op.glyphFor name).or (Dict.get? s.catalog.glyphs name) := by
  rcases step_cases s op with ⟨clone, n, glyph, rfl, valid, hc, -⟩ | ⟨-, hc, -, hn⟩ | ⟨-, hc, -, hn⟩
  · simp only [hc, Dict.get?_insert, Op.glyphFor, valid, true_and]
    split <;> rfl
  · rw [hc, hn, glyphs_snapshot, Option.none_or]
  · rw [hc, hn, Option.none_or]

theorem views_prefix_step (s : Shared) (op : Op) : s.views <+: (s.step op).views := by
  rcases step_cases s op with ⟨-, -, -, -, -, -, hv, -⟩ | ⟨-, -, hv, -⟩ | ⟨-, -, hv, -⟩ <;>
    simp [hv]

/-! ## Runs -/

theorem run_append (s : Shared) (ops later : List Op) :
    s.run (ops ++ later) = (s.run ops).run later := List.foldl_append

theorem run_append_singleton (s : Shared) (ops : List Op) (op : Op) :
    s.run (ops ++ [op]) = (s.run ops).step op := by
  rw [run_append]
  rfl

theorem reachable_run (ops : List Op) : (empty.run ops).catalog.Reachable := by
  induction ops using List.reverseRecOn with
  | nil => exact .empty
  | append_singleton ops op ih =>
    rw [run_append_singleton]
    exact reachable_step ih op

/-- The catalog is the map of the accepted registrations. -/
theorem get?_run (ops : List Op) (name : String) :
    Dict.get? (empty.run ops).catalog.glyphs name = registered ops name := by
  induction ops using List.reverseRecOn with
  | nil => rfl
  | append_singleton ops op ih =>
    rw [run_append_singleton, get?_step, ih, registered_append_singleton]

theorem shows_run (ops : List Op) {v : IconView}
    (hv : v.glyphs = (empty.run ops).catalog.glyphs) : v.Shows (registered ops) := by
  have shown := (reachable_run ops).shows hv
  rwa [funext (get?_run ops)] at shown

theorem views_prefix_run (s : Shared) (ops : List Op) : s.views <+: (s.run ops).views := by
  induction ops generalizing s with
  | nil => exact List.prefix_rfl
  | cons op ops ih => exact (views_prefix_step s op).trans (ih (s.step op))

/-- A view that is handed out shows the registrations until then. -/
theorem shows_of_answer {ops : List Op} {op : Op} {v : IconView}
    (h : (empty.run ops).answer op = .view v) :
    v.Shows (registered ops) ∧ (empty.run (ops ++ [op])).views = (empty.run ops).views ++ [v] := by
  rw [run_append_singleton]
  rcases step_cases (empty.run ops) op with ⟨-, -, -, -, -, -, -, ha⟩ | ⟨ha, -, hv, -⟩ | ⟨ha, -⟩
  · rw [ha] at h
    cases h
  · rw [ha] at h
    obtain rfl := Answer.view.inj h
    exact ⟨shows_run ops (reachable_run ops).snapshot_glyphs, hv⟩
  · exact absurd h (ha v)

/-- Every view there is was handed out by some operation. -/
theorem exists_of_mem_views {ops : List Op} {v : IconView} (h : v ∈ (empty.run ops).views) :
    ∃ before op after, ops = before ++ op :: after ∧ (empty.run before).answer op = .view v := by
  induction ops using List.reverseRecOn with
  | nil => cases h
  | append_singleton ops op ih =>
    have earlier (hv : v ∈ (empty.run ops).views) :
        ∃ before o after, ops ++ [op] = before ++ o :: after ∧
          (empty.run before).answer o = .view v := by
      obtain ⟨before, o, after, rfl, ha⟩ := ih hv
      exact ⟨before, o, after ++ [op], by simp, ha⟩
    rw [run_append_singleton] at h
    rcases step_cases (empty.run ops) op with
      ⟨-, -, -, -, -, -, hv, -⟩ | ⟨ha, -, hv, -⟩ | ⟨-, -, hv, -⟩
    · exact earlier (hv ▸ h)
    · rw [hv, List.mem_append, List.mem_singleton] at h
      rcases h with h | rfl
      · exact earlier h
      · exact ⟨ops, op, [], rfl, ha⟩
    · exact earlier (hv ▸ h)

/-- In every interleaving of what the clones do: a rejected registration changes nothing; the
catalog answers by the accepted registrations, the last one under each name; every snapshot hands
out a view, and every view that is handed out, kept or built, shows the registrations before it;
and the views that were handed out stay what they are, whatever the clones do later. -/
theorem run_coherent (ops : List Op) :
    (∀ clone name glyph, isIconName name = false →
      (empty.run ops).act (.register clone name glyph) =
        (empty.run ops, .rejected (.config (.invalidIconName name)))) ∧
    (∀ clone name, (empty.run ops).act (.glyph clone name) =
      (empty.run ops, .glyph (registered ops name))) ∧
    (∀ clone, ∃ ns, (empty.run ops).act (.names clone) = (empty.run ops, .names ns) ∧
      ns.Pairwise (· < ·) ∧ ∀ name, name ∈ ns ↔ (registered ops name).isSome = true) ∧
    (∀ clone, ∃ v, (empty.run ops).answer (.snapshot clone) = .view v) ∧
    (∀ op v, (empty.run ops).answer op = .view v → v.Shows (registered ops) ∧
      ∀ later, (empty.run (ops ++ op :: later)).views[(empty.run ops).views.length]? = some v) ∧
    (∀ v ∈ (empty.run ops).views, ∃ before op after, ops = before ++ op :: after ∧
      (empty.run before).answer op = .view v ∧ v.Shows (registered before)) ∧
    ∀ later, (empty.run ops).views <+: (empty.run (ops ++ later)).views := by
  refine ⟨fun clone name glyph invalid => register_of_not_isIconName invalid clone,
    fun clone name => ?_, fun clone => ⟨_, rfl, ?_⟩, fun clone => ⟨_, rfl⟩, fun op v handed => ?_,
    fun v hv => ?_, fun later => ?_⟩
  · rw [act, get?_run]
  · have shown := shows_run ops (v := ⟨(empty.run ops).catalog.glyphs⟩) rfl
    exact ⟨shown.sorted, shown.names⟩
  · obtain ⟨shown, appended⟩ := shows_of_answer handed
    refine ⟨shown, fun later => ?_⟩
    have kept := views_prefix_run (empty.run (ops ++ [op])) later
    rw [← run_append, appended, List.append_assoc, List.singleton_append] at kept
    simpa using List.prefix_iff_getElem?.mp kept (empty.run ops).views.length (by simp)
  · obtain ⟨before, op, after, rfl, handed⟩ := exists_of_mem_views hv
    exact ⟨before, op, after, rfl, handed, (shows_of_answer handed).1⟩
  · rw [run_append]
    exact views_prefix_run _ later

example : (empty.run [.register 0 "bell" "b", .look 1, .register 2 "bell" "B", .build 1,
    .register 0 "1" "x", .look 0]).views = [⟨[("bell", "B")]⟩, ⟨[("bell", "B")]⟩] := by
  decide

end Shared

end IconCatalog
end TemplateBar
