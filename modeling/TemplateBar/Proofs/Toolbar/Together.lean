import TemplateBar.Proofs.Item.Lifecycle
import TemplateBar.Proofs.Toolbar.Brightness
import TemplateBar.Proofs.Toolbar.Order

/-!
# All items together

Between operations every item is unmounted or active. So mounting all items, or unmounting all of
them, never stops on the way, whichever items are mounted already: it does to each item what is
missing and nothing to the others. An item that was unmounted has no mount that a ticket could name,
and no later mount is an earlier one.
-/
namespace TemplateBar

theorem IconCatalog.snapshot_snapshot (c : IconCatalog) : c.snapshot.2.snapshot = c.snapshot := by
  unfold snapshot
  cases hc : c.cached with
  | none => rfl
  | some v => simp [hc]

theorem ItemState.ne_unmounted_of_active {state : ItemState} (h : state = .active) :
    state ≠ .unmounted := by
  rw [h]
  decide

namespace BarItem

variable {b b' : BarItem}

theorem generation_le_act (h : b.item.Coherent) (icons : IconView) (op : BarItemOp) :
    b.item.lifecycle.generation ≤ (b.act icons op).item.item.lifecycle.generation := by
  rw [act_generation h]
  exact Nat.le_add_right _ _

/-- A mount that is over stays so, as an unmounted item becomes active by another mount only. -/
theorem over_act {generation : Nat} (h : b.item.Coherent)
    (past : Lifecycle.Over generation b.item.lifecycle) (icons : IconView) (op : BarItemOp) :
    Lifecycle.Over generation (b.act icons op).item.item.lifecycle := by
  rcases past with later | ⟨same, unmounted⟩
  · exact Or.inl (later.trans_le (generation_le_act h icons op))
  · have state : (b.act icons op).item.item.lifecycle.state = _ := act_state h icons op
    have number := act_generation h icons op
    cases op with
    | mount surroundings =>
      rw [begins_mount h, decide_eq_true (show b.item.state = .unmounted from unmounted)] at number
      exact Or.inl (by simp [number, same])
    | unmount => exact Or.inr ⟨number.trans same, state⟩
    | _ => exact Or.inr ⟨number.trans same, state.trans unmounted⟩

/-- What mounting all items makes of one of them. -/
structure MountsTo (icons : IconView) (surroundings : Dict String) (b b' : BarItem) : Prop where
  id : b'.id = b.id
  state : b'.state = .active
  kept : b.state = .active → b' = b
  mounted : b.state = .unmounted → b' = (b.mount icons surroundings).1
  tickets : ∀ ticket : MountTicket,
    ticket.isCurrent b.item.lifecycle = true → ticket.isCurrent b'.item.lifecycle = true

/-- What unmounting all items makes of one of them. -/
structure UnmountsTo (b b' : BarItem) : Prop where
  id : b'.id = b.id
  state : b'.state = .unmounted
  kept : b.state = .unmounted → b' = b
  unmounted : b.state = .active → b' = b.unmount.1

theorem mountsTo (h : b.item.Coherent) (icons : IconView) (surroundings : Dict String) :
    MountsTo icons surroundings b
      (if b.state = .unmounted then (b.mount icons surroundings).1 else b) := by
  rcases h.state with unmounted | active
  · change b.state = .unmounted at unmounted
    rw [if_pos unmounted]
    exact
      { id := b.act_id icons (.mount surroundings)
        state := act_state h icons (.mount surroundings)
        kept := fun active => absurd unmounted (ItemState.ne_unmounted_of_active active)
        mounted := fun _ => rfl
        tickets := fun ticket current => by
          have stale : b.item.lifecycle.state = .unmounted := unmounted
          simp [MountTicket.isCurrent, stale] at current }
  · have other : b.state ≠ .unmounted := ItemState.ne_unmounted_of_active active
    rw [if_neg other]
    exact ⟨rfl, active, fun _ => rfl, fun unmounted => absurd unmounted other,
      fun _ current => current⟩

theorem unmountsTo (h : b.item.Coherent) :
    UnmountsTo b (if b.state = .unmounted then b else b.unmount.1) := by
  rcases h.state with unmounted | active
  · change b.state = .unmounted at unmounted
    rw [if_pos unmounted]
    exact ⟨rfl, unmounted, fun _ => rfl,
      fun active => absurd unmounted (ItemState.ne_unmounted_of_active active)⟩
  · have other : b.state ≠ .unmounted := ItemState.ne_unmounted_of_active active
    rw [if_neg other]
    exact ⟨b.act_id ⟨[]⟩ .unmount, act_state h ⟨[]⟩ .unmount,
      fun unmounted => absurd unmounted other, fun _ => rfl⟩

theorem isQuery_of_mount {icons : IconView} {surroundings : Dict String} {task : HostTask}
    (h : task ∈ (b.mount icons surroundings).2.2) :
    ∃ ticket, task = .queryBrightness b.id ticket ∧
      (b.mount icons surroundings).1.item.lifecycle.ticket? = some ticket := by
  have issued : task ∈ (b.act icons (.mount surroundings)).tasks := h
  have query : task.IsQuery := isQuery_mount issued
  have left : task.LeftAt b.id (b.mount icons surroundings).1.item.lifecycle := leftAt_act issued
  cases task with
  | call c => exact query.elim
  | queryBrightness id ticket =>
    obtain ⟨rfl, taken⟩ := left
    exact ⟨ticket, rfl, taken⟩

end BarItem

namespace Toolbar

variable {t : Toolbar}

theorem mountAll_eq (t : Toolbar) (surroundings : Dict String) :
    t.mountAll surroundings =
      ({ t with
          items := t.items.map fun b =>
            if b.state = .unmounted then (b.mount t.catalog.snapshot.1 surroundings).1 else b
          catalog := t.catalog.snapshot.2 },
        .ok (),
        t.items.flatMap fun b =>
          if b.state = .unmounted then (b.mount t.catalog.snapshot.1 surroundings).2.2
          else []) := by
  simp only [mountAll, mountItems_eq]

theorem unmountAll_eq (h : ∀ b ∈ t.items, b.item.Coherent) :
    t.unmountAll =
      ({ t with items := t.items.map fun b => if b.state = .unmounted then b else b.unmount.1 },
        .ok ()) := by
  simp only [unmountAll, unmountItems_eq h]

/-- Where every item is active there is nothing to mount. -/
theorem mountAll_of_active (h : ∀ b ∈ t.items, b.state = .active)
    (view : t.catalog.snapshot.2 = t.catalog) (surroundings : Dict String) :
    t.mountAll surroundings = (t, .ok (), []) := by
  have other (b : BarItem) (hb : b ∈ t.items) : b.state ≠ .unmounted :=
    ItemState.ne_unmounted_of_active (h b hb)
  have items : (t.items.map fun b => if b.state = .unmounted then
      (b.mount t.catalog.snapshot.1 surroundings).1 else b) = t.items :=
    (List.map_congr_left fun b hb => if_neg (other b hb)).trans (List.map_id' t.items)
  have tasks : (t.items.flatMap fun b => if b.state = .unmounted then
      (b.mount t.catalog.snapshot.1 surroundings).2.2 else []) = [] :=
    List.flatMap_eq_nil_iff.mpr fun b hb => if_neg (other b hb)
  rw [mountAll_eq, items, tasks, view]

/-- Where every item is unmounted there is nothing to unmount. -/
theorem unmountAll_of_unmounted (h : ∀ b ∈ t.items, b.item.Coherent)
    (unmounted : ∀ b ∈ t.items, b.state = .unmounted) : t.unmountAll = (t, .ok ()) := by
  have items : (t.items.map fun b => if b.state = .unmounted then b else b.unmount.1) = t.items :=
    (List.map_congr_left fun b hb => if_pos (unmounted b hb)).trans (List.map_id' t.items)
  rw [unmountAll_eq h, items]

end Toolbar

namespace Session

variable {s : Session} {id : String} {ticket : MountTicket}

/-- What every operation on an item keeps of its lifecycle is kept on the toolbar. -/
theorem Sound.lifecycle_step {P : Lifecycle → Prop}
    (act : ∀ (b : BarItem) (icons : IconView) (op : BarItemOp), b.item.Coherent →
      P b.item.lifecycle → P (b.act icons op).item.item.lifecycle)
    (sound : s.Sound) (present : id ∈ s.bar.ids)
    (h : ∀ b ∈ s.bar.items, b.id = id → P b.item.lifecycle) (op : BarOp) :
    ∀ b ∈ (s.step op).bar.items, b.id = id → P b.item.lifecycle := by
  intro b hb named
  rcases mem_items_step sound hb with ⟨b', hb', item⟩ | ⟨definition, new, rfl⟩
  · have same : b'.id = id := by
      rw [← named, ← b'.react_id s.icons (op.reaching b')]
      exact congrArg Item.id item.symm
    rw [item]
    cases op.reaching b' with
    | none => exact h b' hb' same
    | some o => exact act b' s.icons o (sound.coherent b' hb') (h b' hb' same)
  · rw [BarItem.create_id] at named
    exact absurd (named ▸ present) new

theorem Sound.lifecycle_run {P : Lifecycle → Prop}
    (act : ∀ (b : BarItem) (icons : IconView) (op : BarItemOp), b.item.Coherent →
      P b.item.lifecycle → P (b.act icons op).item.item.lifecycle)
    (sound : s.Sound) (present : id ∈ s.bar.ids)
    (h : ∀ b ∈ s.bar.items, b.id = id → P b.item.lifecycle) (ops : List BarOp) :
    ∀ b ∈ (s.run ops).bar.items, b.id = id → P b.item.lifecycle := by
  induction ops generalizing s with
  | nil => exact h
  | cons op ops ih =>
    exact ih (sound.step op) (mem_ids_step sound present op) (sound.lifecycle_step act present h op)

/-- The ticket was taken from the item with that id, now or at any time before. -/
def Issued (s : Session) (id : String) (ticket : MountTicket) : Prop :=
  ∃ (s₀ : Session) (ops : List BarOp), s₀.Arises ∧ s₀.run ops = s ∧
    ∃ b ∈ s₀.bar.items, b.id = id ∧ b.item.lifecycle.ticket? = some ticket

theorem Issued.mem_ids (h : s.Issued id ticket) : id ∈ s.bar.ids := by
  obtain ⟨s₀, ops, arises, rfl, b, hb, rfl, -⟩ := h
  exact mem_ids_run arises.sound (List.mem_map_of_mem hb) ops

/-- No ticket is of a mount that is still to come. -/
theorem Issued.generation_le (h : s.Issued id ticket) :
    ∀ b ∈ s.bar.items, b.id = id → ticket.generation ≤ b.item.lifecycle.generation := by
  obtain ⟨s₀, ops, arises, rfl, b₀, hb₀, rfl, taken⟩ := h
  refine arises.sound.lifecycle_run (P := fun l => ticket.generation ≤ l.generation)
    (fun b icons op coherent le => le.trans (b.generation_le_act coherent icons op))
    (List.mem_map_of_mem hb₀) (fun b hb named => ?_) ops
  rw [arises.sound.distinct.eq hb₀ hb named]
  exact (Lifecycle.generation_of_ticket? taken).le

theorem Issued.step (h : s.Issued id ticket) (op : BarOp) : (s.step op).Issued id ticket := by
  obtain ⟨s₀, ops, arises, rfl, taken⟩ := h
  exact ⟨s₀, ops ++ [op], arises, run_append s₀ ops [op], taken⟩

/-- A ticket of an item that is unmounted now is stale from now on. -/
theorem Issued.stale_run (h : s.Issued id ticket) (sound : s.Sound)
    (unmounted : ∀ b ∈ s.bar.items, b.state = .unmounted) (later : List BarOp) :
    ∀ b ∈ (s.run later).bar.items, b.id = id → ticket.isCurrent b.item.lifecycle = false := by
  intro b hb named
  have past : Lifecycle.Over ticket.generation b.item.lifecycle :=
    sound.lifecycle_run (fun b icons op coherent past => BarItem.over_act coherent past icons op)
      h.mem_ids
      (fun b hb named => (h.generation_le b hb named).lt_or_eq.imp_right fun same =>
        ⟨same.symm, unmounted b hb⟩)
      later b hb named
  exact past.not_current

/-- Mounting all items succeeds from any mixture, makes active those that are not and leaves all
others as they are, with no query on their behalf. Unmounting all of them succeeds and unmounts
those that are mounted; no ticket that was taken before is current again afterwards. Neither does
anything the second time. -/
theorem mountAll_unmountAll (arises : s.Arises) :
    (∀ b ∈ s.bar.items, b.state = .unmounted ∨ b.state = .active) ∧
    (∀ surroundings,
      (s.bar.mountAll surroundings).2.1 = .ok () ∧
      List.Forall₂ (BarItem.MountsTo s.icons surroundings) s.bar.items
        (s.bar.mountAll surroundings).1.items ∧
      (∀ task ∈ (s.bar.mountAll surroundings).2.2, ∃ b ∈ s.bar.items, b.state = .unmounted ∧
        ∃ ticket, task = .queryBrightness b.id ticket ∧
          (b.mount s.icons surroundings).1.item.lifecycle.ticket? = some ticket) ∧
      (s.bar.mountAll surroundings).1.context = s.bar.context ∧
      (s.bar.mountAll surroundings).1.catalog.glyphs = s.bar.catalog.glyphs ∧
      (s.bar.mountAll surroundings).1.cache = s.bar.cache ∧
      ∀ surroundings', (s.bar.mountAll surroundings).1.mountAll surroundings' =
        ((s.bar.mountAll surroundings).1, .ok (), [])) ∧
    s.bar.unmountAll.2 = .ok () ∧
    List.Forall₂ BarItem.UnmountsTo s.bar.items s.bar.unmountAll.1.items ∧
    s.bar.unmountAll.1 = { s.bar with items := s.bar.unmountAll.1.items } ∧
    s.bar.unmountAll.1.unmountAll = (s.bar.unmountAll.1, .ok ()) ∧
    ∀ id ticket, s.Issued id ticket → ∀ later,
      ∀ b ∈ ((s.step .unmountAll).run later).bar.items, b.id = id →
        ticket.isCurrent b.item.lifecycle = false := by
  have sound := arises.sound
  refine ⟨fun b hb => (sound.coherent b hb).state, fun surroundings => ?_, ?_⟩
  · have active : ∀ b ∈ (s.bar.mountAll surroundings).1.items, b.state = .active := by
      rw [Toolbar.mountAll_eq]
      intro b' hb'
      obtain ⟨b, hb, rfl⟩ := List.mem_map.mp hb'
      exact (BarItem.mountsTo (sound.coherent b hb) s.icons surroundings).state
    have view : (s.bar.mountAll surroundings).1.catalog.snapshot.2 =
        (s.bar.mountAll surroundings).1.catalog :=
      congrArg Prod.snd s.bar.catalog.snapshot_snapshot
    refine ⟨?_, ?_, ?_, rfl, s.bar.catalog.glyphs_snapshot, rfl,
      fun surroundings' => Toolbar.mountAll_of_active active view surroundings'⟩
    · rw [Toolbar.mountAll_eq]
    · rw [Toolbar.mountAll_eq]
      exact List.forall₂_map_right_iff.mpr (List.forall₂_same.mpr fun b hb =>
        BarItem.mountsTo (sound.coherent b hb) s.icons surroundings)
    · rw [Toolbar.mountAll_eq]
      intro task htask
      obtain ⟨b, hb, left⟩ := List.mem_flatMap.mp htask
      split at left
      · next unmounted => exact ⟨b, hb, unmounted, BarItem.isQuery_of_mount left⟩
      · cases left
  · have unmounted : ∀ b ∈ s.bar.unmountAll.1.items, b.state = .unmounted := by
      rw [Toolbar.unmountAll_eq sound.coherent]
      intro b' hb'
      obtain ⟨b, hb, rfl⟩ := List.mem_map.mp hb'
      exact (BarItem.unmountsTo (sound.coherent b hb)).state
    have sound' : (s.step .unmountAll).Sound := sound.step .unmountAll
    refine ⟨?_, ?_, rfl, Toolbar.unmountAll_of_unmounted sound'.coherent unmounted,
      fun id ticket issued => (issued.step .unmountAll).stale_run sound' unmounted⟩
    · rw [Toolbar.unmountAll_eq sound.coherent]
    · rw [Toolbar.unmountAll_eq sound.coherent]
      exact List.forall₂_map_right_iff.mpr (List.forall₂_same.mpr fun b hb =>
        BarItem.unmountsTo (sound.coherent b hb))

/-- One settings item is mounted with its panel open when another one is new: only the new one asks
for the brightness, and the ticket of the first one is stale in its next mount. -/
theorem mountAll_unmountAll_mixed :
    let context : ItemContext := ⟨[], {}, some [], true⟩
    let s := (of (.empty context .empty) ⟨none, none, []⟩).run
      [.push { id := "a", kind := .settings, template := "1" }, .item "a" (.mount []), .click "a",
        .push { id := "b", kind := .settings, template := "2" }]
    s.Arises ∧ s.bar.items.map BarItem.state = [.active, .unmounted] ∧
      s.Issued "a" ⟨1, ⟨0⟩⟩ ∧
      (s.bar.mountAll []).1.items.map BarItem.state = [.active, .active] ∧
      (s.bar.mountAll []).2.2.length = 1 ∧
      (∀ task ∈ (s.bar.mountAll []).2.2, ∃ ticket, task = .queryBrightness "b" ticket) ∧
      (s.bar.mountAll []).1.items.head? = s.bar.items.head? ∧
      ((s.step .unmountAll).run [.mountAll []]).bar.items.map BarItem.state =
        [.active, .active] ∧
      ∀ b ∈ ((s.step .unmountAll).run [.mountAll []]).bar.items, b.id = "a" →
        MountTicket.isCurrent ⟨1, ⟨0⟩⟩ b.item.lifecycle = false := by
  intro context s
  have arises : s.Arises := ⟨_, _, _, .empty context .empty, rfl⟩
  have issued : s.Issued "a" ⟨1, ⟨0⟩⟩ :=
    ⟨s, [], arises, run_nil s, by decide +kernel +zetaReduce⟩
  obtain ⟨-, mounting, -, -, -, -, stale⟩ := mountAll_unmountAll arises
  obtain ⟨-, mounts, queries, -⟩ := mounting []
  have states : s.bar.items.map BarItem.state = [.active, .unmounted] := by
    decide +kernel +zetaReduce
  have all : (s.bar.mountAll []).1.items.map BarItem.state = [.active, .active] := by
    decide +kernel +zetaReduce
  have one : (s.bar.mountAll []).2.2.length = 1 := by decide +kernel +zetaReduce
  have again : ((s.step .unmountAll).run [.mountAll []]).bar.items.map BarItem.state =
      [.active, .active] := by
    decide +kernel +zetaReduce
  refine ⟨arises, states, issued, all, one, fun task htask => ?_, ?_, again,
    stale "a" ⟨1, ⟨0⟩⟩ issued [.mountAll []]⟩
  · obtain ⟨b, hb, unmounted, ticket, rfl, -⟩ := queries task htask
    rcases List.mem_cons.mp hb with rfl | hb
    · cases unmounted
    · rw [List.mem_singleton.mp hb]
      exact ⟨ticket, rfl⟩
  · obtain ⟨b', rest, first, -, items⟩ := List.forall₂_cons_left_iff.mp mounts
    rw [items]
    exact congrArg some (first.kept rfl)

end Session
end TemplateBar
