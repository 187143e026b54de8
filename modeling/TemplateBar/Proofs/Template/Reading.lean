import TemplateBar.Proofs.Template.Unambiguous

/-!
# What a step reads

A step that stands before lexemes of given kinds either reads exactly these, or it runs out of
nesting levels, which one it is depends only on the number of levels it needs. `Settles` says so of
one result, and the lemmas about it put the results of steps together.
-/
namespace TemplateBar.Template

/-- Lexemes of the kinds given stand before the rest. -/
def Spells : List LexemeKind → List Lexeme → List Lexeme → Prop
  | [], ls, rest => ls = rest
  | k :: ks, ls, rest => ∃ offset ls', ls = ⟨k, offset⟩ :: ls' ∧ Spells ks ls' rest

/-- The end of the source stands at the end and nowhere else. -/
inductive Ended : List Lexeme → Prop
  | last (offset : Nat) : Ended [⟨.eof, offset⟩]
  | cons {l : Lexeme} {ls : List Lexeme} (h : l.kind ≠ .eof) (later : Ended ls) : Ended (l :: ls)

theorem spells_append {ks ks' : List LexemeKind} {ls rest : List Lexeme} :
    Spells (ks ++ ks') ls rest ↔ ∃ mid, Spells ks ls mid ∧ Spells ks' mid rest := by
  induction ks generalizing ls with
  | nil => simp [Spells]
  | cons k ks ih =>
    constructor
    · rintro ⟨offset, ls', rfl, h⟩
      obtain ⟨mid, h₁, h₂⟩ := ih.mp h
      exact ⟨mid, ⟨offset, ls', rfl, h₁⟩, h₂⟩
    · rintro ⟨mid, ⟨offset, ls', rfl, h₁⟩, h₂⟩
      exact ⟨offset, ls', rfl, ih.mpr ⟨mid, h₁, h₂⟩⟩

theorem Spells.kinds_eq {ks : List LexemeKind} {ls rest : List Lexeme} (h : Spells ks ls rest) :
    ls.map (·.kind) = ks ++ rest.map (·.kind) := by
  induction ks generalizing ls with
  | nil => rw [show ls = rest from h, List.nil_append]
  | cons k ks ih =>
    obtain ⟨offset, ls', rfl, h⟩ := h
    simp [ih h]

theorem spells_of_kinds_eq {ks : List LexemeKind} {ls : List Lexeme} {k : LexemeKind}
    (h : ls.map (·.kind) = ks ++ [k]) : ∃ offset, Spells ks ls [⟨k, offset⟩] := by
  induction ks generalizing ls with
  | nil =>
    obtain ⟨l, rfl, rfl⟩ := List.map_eq_singleton_iff.mp h
    exact ⟨l.offset, rfl⟩
  | cons k' ks ih =>
    obtain ⟨l, ls', rfl, rfl, hls⟩ := List.map_eq_cons_iff.mp h
    obtain ⟨offset, hspell⟩ := ih hls
    exact ⟨offset, l.offset, ls', rfl, hspell⟩

theorem Spells.length_eq {ks : List LexemeKind} {ls rest : List Lexeme} (h : Spells ks ls rest) :
    ls.length = ks.length + rest.length := by
  have hl := congrArg List.length h.kinds_eq
  simpa using hl

namespace Ended

theorem length_pos {ls : List Lexeme} (h : Ended ls) : 0 < ls.length := by
  cases h <;> simp

theorem tail {l : Lexeme} {ls : List Lexeme} (h : Ended (l :: ls)) (hl : l.kind ≠ .eof) :
    Ended ls := by
  cases h with
  | last => exact absurd rfl hl
  | cons _ later => exact later

theorem eq_of_eof {ls : List Lexeme} (h : Ended ls)
    (hk : (Parse.current ⟨ls, 0⟩).kind = .eof) : ∃ offset, ls = [⟨.eof, offset⟩] := by
  cases h with
  | last offset => exact ⟨offset, rfl⟩
  | cons hl later => exact absurd hk hl

theorem of_spells {ks : List LexemeKind} {ls rest : List Lexeme} (h : Ended ls)
    (hs : Spells ks ls rest) (hr : rest ≠ []) : Ended rest := by
  induction ks generalizing ls with
  | nil => rwa [← show ls = rest from hs]
  | cons k ks ih =>
    obtain ⟨offset, ls', rfl, hs⟩ := hs
    cases h with
    | last =>
      have hlen := hs.length_eq
      simp only [List.length_nil] at hlen
      exact absurd (List.length_eq_zero_iff.mp (by omega)) hr
    | cons _ later => exact ih later hs

end Ended

theorem Category.Follows.ne_nil {cat : Category} {ls : List Lexeme}
    (h : cat.Follows (ls.map (·.kind))) : ls ≠ [] := by
  rintro rfl
  obtain ⟨k, ks, he, -⟩ := h
  simp at he

theorem Category.Follows.current {cat : Category} {ls : List Lexeme} {d : Nat}
    (h : cat.Follows (ls.map (·.kind))) : cat.Ends (Parse.current ⟨ls, d⟩).kind := by
  cases ls with
  | nil => exact absurd rfl h.ne_nil
  | cons l ls => exact h.head

namespace Parse

theorem step_cons (l : Lexeme) {ls : List Lexeme} (h : Ended ls) (d : Nat) :
    step ⟨l :: ls, d⟩ = ⟨ls, d⟩ := by
  cases h <;> rfl

theorem peek_bind {β : Type} (f : LexemeKind → Parse β) (c : Cursor) :
    (peek >>= f) c = f (current c).kind c := rfl

theorem advance_bind {β : Type} (f : Unit → Parse β) (l : Lexeme) {ls : List Lexeme} (h : Ended ls)
    (d : Nat) : (advance >>= f) ⟨l :: ls, d⟩ = f () ⟨ls, d⟩ := by
  rw [bind_of_ok (show advance ⟨l :: ls, d⟩ = (.ok (), step ⟨l :: ls, d⟩) from rfl), step_cons l h]

theorem bind_eq_ok {α β : Type} {p : Parse α} {f : α → Parse β} {c c' : Cursor} {b : β}
    (h : (p >>= f) c = (.ok b, c')) : ∃ a c₁, p c = (.ok a, c₁) ∧ f a c₁ = (.ok b, c') := by
  rw [bind_apply] at h
  cases hp : p c with
  | mk r c₁ =>
    rw [hp] at h
    cases r with
    | error e => simp at h
    | ok a => exact ⟨a, c₁, rfl, h⟩

theorem eat_of_eq {s : Symbol} {offset : Nat} {ls : List Lexeme} (h : Ended ls) (d : Nat) :
    eat s ⟨⟨.symbol s, offset⟩ :: ls, d⟩ = (.ok true, ⟨ls, d⟩) := by
  have hk : (current ⟨⟨.symbol s, offset⟩ :: ls, d⟩).kind = .symbol s := rfl
  unfold eat
  rw [if_pos hk, step_cons _ h]

theorem eat_of_ne {s : Symbol} {c : Cursor} (h : (current c).kind ≠ .symbol s) :
    eat s c = (.ok false, c) := by
  unfold eat
  rw [if_neg h]

theorem expect_of_eq {s : Symbol} {offset : Nat} {ls : List Lexeme} (h : Ended ls) (d : Nat) :
    expect s ⟨⟨.symbol s, offset⟩ :: ls, d⟩ = (.ok (), ⟨ls, d⟩) := by
  have hk : (current ⟨⟨.symbol s, offset⟩ :: ls, d⟩).kind = .symbol s := rfl
  unfold expect
  rw [if_pos hk, step_cons _ h]

end Parse

section

variable {α β : Type} {D d n m : Nat} {a : α} {b : β} {mid rest : List Lexeme}

/-- With enough levels left the result is read up to the rest, else a level was missing. -/
def Settles (D d need : Nat) (b : β) (rest : List Lexeme) (r : Except EvalError β × Cursor) :
    Prop :=
  (d + need ≤ D → r = (.ok b, ⟨rest, d⟩)) ∧ (D < d + need → r.1 = .error (.depthLimit D))

theorem settles_pure (hd : d ≤ D) : Settles D d 0 b rest (.ok b, ⟨rest, d⟩) :=
  ⟨fun _ => rfl, fun h => by omega⟩

theorem Settles.bind {p : Parse α} {f : α → Parse β} {c : Cursor}
    (h : Settles D d n a mid (p c)) (h' : Settles D d m b rest (f a ⟨mid, d⟩)) :
    Settles D d (max n m) b rest ((p >>= f) c) := by
  constructor
  · intro hle
    rw [Parse.bind_of_ok (h.1 (by omega))]
    exact h'.1 (by omega)
  · intro hlt
    -- The level that is missing may be the first part's or the second part's.
    by_cases hn : d + n ≤ D
    · rw [Parse.bind_of_ok (h.1 hn)]
      exact h'.2 (by omega)
    · have herr := h.2 (by omega)
      rw [Parse.bind_apply]
      cases hp : p c with
      | mk r c' =>
        rw [hp] at herr
        obtain rfl : r = .error (.depthLimit D) := herr
        rfl

/-- The outcome of a step that is run one level deeper. What becomes of the level when it is refused
is left open, as no cursor behind an error is looked at. -/
structure TakesLevel (D : Nat) (p : Parse β) (c : Cursor) (r : Except EvalError β × Cursor) :
    Prop where
  granted : c.depth + 1 ≤ D → ∀ r' c', p ⟨c.ahead, c.depth + 1⟩ = (r', c') →
    r = (r', ⟨c'.ahead, c'.depth - 1⟩)
  refused : D < c.depth + 1 → r.1 = .error (.depthLimit D)

theorem takesLevel_nested (p : Parse β) (c : Cursor) : TakesLevel D p c (Parse.nested D p c) where
  granted := fun hd r' c' hp => by
    unfold Parse.nested
    dsimp only
    rw [if_neg (Nat.not_lt.mpr hd), hp]
  refused := fun hd => by
    unfold Parse.nested
    dsimp only
    rw [if_pos hd]

theorem takesLevel_charged (p : Parse β) (c : Cursor) :
    TakesLevel D p c (Parse.charged D p c) where
  granted := fun hd r' c' hp => by
    unfold Parse.charged
    dsimp only
    rw [if_neg (Nat.not_lt.mpr hd), hp]
  refused := fun hd => by
    unfold Parse.charged
    dsimp only
    rw [if_pos hd]

theorem TakesLevel.settles {p : Parse β} {ls : List Lexeme} {r : Except EvalError β × Cursor}
    (hr : TakesLevel D p ⟨ls, d⟩ r) (h : d + 1 ≤ D → Settles D (d + 1) n b rest (p ⟨ls, d + 1⟩)) :
    Settles D d (n + 1) b rest r := by
  by_cases hd : d + 1 ≤ D
  · cases hp : p ⟨ls, d + 1⟩ with
    | mk r' c' =>
      obtain rfl := hr.granted hd r' c' hp
      rw [hp] at h
      constructor
      · intro hle
        cases (h hd).1 (by omega)
        rfl
      · intro hlt
        exact (h hd).2 (by omega)
  · exact ⟨fun hle => by omega, fun _ => hr.refused (Nat.not_le.mp hd)⟩

theorem TakesLevel.eq_ok {p : Parse β} {ls : List Lexeme} {r : Except EvalError β × Cursor}
    {c : Cursor} (hr : TakesLevel D p ⟨ls, d⟩ r) (h : r = (.ok b, c)) :
    ∃ c', p ⟨ls, d + 1⟩ = (.ok b, c') ∧ c = ⟨c'.ahead, c'.depth - 1⟩ := by
  obtain rfl := h
  by_cases hd : d + 1 ≤ D
  · cases hp : p ⟨ls, d + 1⟩ with
    | mk r' c' =>
      cases hr.granted hd r' c' hp
      exact ⟨c', rfl, rfl⟩
  · have herr := hr.refused (Nat.not_le.mp hd)
    simp at herr

theorem Settles.of_eq {r : Except EvalError β × Cursor} (h : Settles D d n b rest r) (hn : n = m) :
    Settles D d m b rest r := hn ▸ h

/-- A step that stands before lexemes of the kinds given, with something behind them that ends the
category, reads them as `b`; `bound` bounds the lexemes ahead. -/
def Reads (D need bound : Nat) (ks : List LexemeKind) (cat : Category) (p : Parse β) (b : β) :
    Prop :=
  ∀ ⦃ls rest : List Lexeme⦄ ⦃d : Nat⦄, Spells ks ls rest → Ended ls →
    cat.Follows (rest.map (·.kind)) → ls.length ≤ bound → d ≤ D → Settles D d need b rest (p ⟨ls, d⟩)

/-- The first of two parts is read, and the second one stands behind it. -/
theorem Reads.front {bound : Nat} {ks ks' : List LexemeKind} {cat : Category} {p : Parse β}
    {ls : List Lexeme} (h : Reads D n bound ks cat p b) (hs : Spells (ks ++ ks') ls rest)
    (he : Ended ls) (hf : cat.Follows (ks' ++ rest.map (·.kind))) (hlen : ls.length ≤ bound)
    (hd : d ≤ D) :
    ∃ mid, Spells ks' mid rest ∧ Ended mid ∧ ls.length = ks.length + mid.length ∧
      Settles D d n b mid (p ⟨ls, d⟩) := by
  obtain ⟨mid, h₁, h₂⟩ := spells_append.mp hs
  rw [← h₂.kinds_eq] at hf
  exact ⟨mid, h₂, he.of_spells h₁ hf.ne_nil, h₁.length_eq, h h₁ he hf hlen hd⟩

end

end TemplateBar.Template
