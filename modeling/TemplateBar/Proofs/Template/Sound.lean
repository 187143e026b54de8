import TemplateBar.Proofs.Template.Complete

/-!
# What is read is a phrase

Where a step of the parser succeeds, the lexemes it has passed are those of a phrase of its category
with the result as its tree, what follows ends the phrase, and no nesting level is left in use. The
steps take the step for whole expressions as a parameter, so the lemmas assume it of that one; the
induction on the nesting bound closes the circle.
-/
namespace TemplateBar.Template

open Parse LexemeKind

/-- A phrase stands before the rest and ends there. -/
structure Phrase.Stands {cat : Category} (p : Phrase cat) (ls rest : List Lexeme) : Prop where
  spells : Spells p.kinds ls rest
  ended : Ended rest
  follows : cat.Follows (rest.map (·.kind))

/-- Where the step succeeds before at most `bound` lexemes, it has read a phrase. -/
def Finds (cat : Category) (bound : Nat) (step : Parse cat.Tree) : Prop :=
  ∀ ⦃ls : List Lexeme⦄ ⦃d : Nat⦄ ⦃a : cat.Tree⦄ ⦃c : Cursor⦄, Ended ls → ls.length ≤ bound →
    step ⟨ls, d⟩ = (.ok a, c) →
      ∃ (p : Phrase cat) (rest : List Lexeme), p.Stands ls rest ∧ p.tree = a ∧ c = ⟨rest, d⟩

/-- The same for the links behind an expression. -/
def FindsLinks (bound : Nat) (step : Expr → Parse Expr) : Prop :=
  ∀ ⦃e : Expr⦄ ⦃ls : List Lexeme⦄ ⦃d : Nat⦄ ⦃a : Expr⦄ ⦃c : Cursor⦄, Ended ls → ls.length ≤ bound →
    step e ⟨ls, d⟩ = (.ok a, c) →
      ∃ (p : Phrase .links) (rest : List Lexeme), p.Stands ls rest ∧ p.tree e = a ∧ c = ⟨rest, d⟩

theorem Ended.exists_cons {ls : List Lexeme} (h : Ended ls) :
    ∃ k offset ls', ls = ⟨k, offset⟩ :: ls' ∧ (k ≠ .eof → Ended ls') := by
  cases h with
  | last offset => exact ⟨.eof, offset, [], rfl, fun hk => absurd rfl hk⟩
  | @cons l ls hl later => exact ⟨l.kind, l.offset, ls, rfl, fun _ => later⟩

theorem Ended.follows {cat : Category} {ls : List Lexeme} {d : Nat} (h : Ended ls)
    (hk : cat.Ends (current ⟨ls, d⟩).kind) : cat.Follows (ls.map (·.kind)) := by
  obtain ⟨k, offset, ls', rfl, -⟩ := h.exists_cons
  exact ⟨k, _, rfl, hk⟩

theorem Ended.follows_primary {ls : List Lexeme} (h : Ended ls) :
    Category.primary.Follows (ls.map (·.kind)) := by
  have hends : Category.primary.Ends (current ⟨ls, 0⟩).kind := trivial
  exact h.follows hends

namespace Parse

variable {α β : Type} {D d : Nat} {ls : List Lexeme} {c : Cursor}

theorem pure_eq_ok {a b : α} {c' : Cursor} (h : (pure a : Parse α) c = (.ok b, c')) :
    a = b ∧ c = c' := by
  rw [pure_apply] at h
  cases h
  exact ⟨rfl, rfl⟩

theorem expect_eq_ok {s : Symbol} {u : Unit} (he : Ended ls) (h : expect s ⟨ls, d⟩ = (.ok u, c)) :
    ∃ offset ls', ls = ⟨.symbol s, offset⟩ :: ls' ∧ Ended ls' ∧ c = ⟨ls', d⟩ := by
  obtain ⟨k, offset, ls', rfl, htail⟩ := he.exists_cons
  unfold expect at h
  split at h
  · rename_i hk
    obtain rfl : k = .symbol s := hk
    have he' := htail (by simp)
    rw [step_cons _ he'] at h
    cases h
    exact ⟨offset, ls', rfl, he', rfl⟩
  · simp [reject] at h

theorem eat_eq_true {s : Symbol} (he : Ended ls) (h : eat s ⟨ls, d⟩ = (.ok true, c)) :
    ∃ offset ls', ls = ⟨.symbol s, offset⟩ :: ls' ∧ Ended ls' ∧ c = ⟨ls', d⟩ := by
  obtain ⟨k, offset, ls', rfl, htail⟩ := he.exists_cons
  unfold eat at h
  split at h
  · rename_i hk
    obtain rfl : k = .symbol s := hk
    have he' := htail (by simp)
    rw [step_cons _ he'] at h
    cases h
    exact ⟨offset, ls', rfl, he', rfl⟩
  · simp at h

theorem eat_eq_false {s : Symbol} {c' : Cursor} (h : eat s c = (.ok false, c')) :
    (current c).kind ≠ .symbol s ∧ c' = c := by
  unfold eat at h
  split at h
  · simp at h
  · rename_i hk
    cases h
    exact ⟨hk, rfl⟩

end Parse

namespace Expr

variable {D n : Nat} {expr : Parse Expr}

theorem finds_ternary (hexpr : Finds .expr n expr)
    (hruns : Finds (.run Level.all) (n + 1) (runs Level.all (unaryLevel D expr))) :
    Finds .expr (n + 1) (ternary D expr) := by
  intro ls d a c he hlen h
  obtain ⟨_, _, hcond, h⟩ := bind_eq_ok h
  obtain ⟨p, rest, hp, rfl, rfl⟩ := hruns he hlen hcond
  have hlen₁ := hp.spells.length_eq
  obtain ⟨b, _, heat, h⟩ := bind_eq_ok h
  cases b with
  | false =>
    obtain ⟨hne, rfl⟩ := eat_eq_false heat
    obtain ⟨rfl, rfl⟩ := pure_eq_ok h
    have hends : Category.expr.Ends (current ⟨rest, d⟩).kind := ⟨hp.follows.current, hne⟩
    exact ⟨.plain p, rest, ⟨hp.spells, hp.ended, hp.ended.follows hends⟩, rfl, rfl⟩
  | true =>
    obtain ⟨_, r₁, rfl, he₁, rfl⟩ := eat_eq_true hp.ended heat
    simp only [List.length_cons] at hlen₁
    obtain ⟨_, _, hthen, h⟩ := bind_eq_ok h
    obtain ⟨pa, rest, ha, rfl, rfl⟩ := hexpr he₁ (by omega) hthen
    have hlen₂ := ha.spells.length_eq
    obtain ⟨_, _, hcolon, h⟩ := bind_eq_ok h
    obtain ⟨_, r₂, rfl, he₂, rfl⟩ := expect_eq_ok ha.ended hcolon
    simp only [List.length_cons] at hlen₂
    obtain ⟨_, _, helse, h⟩ := bind_eq_ok h
    obtain ⟨pb, rest, hb, rfl, rfl⟩ := hexpr he₂ (by omega) helse
    obtain ⟨rfl, rfl⟩ := pure_eq_ok h
    refine ⟨.conditional p pa pb, rest, ⟨?_, hb.ended, hb.follows⟩, rfl, rfl⟩
    exact spells_append.mpr ⟨_, hp.spells, _, _, rfl,
      spells_append.mpr ⟨_, ha.spells, _, _, rfl, hb.spells⟩⟩

section

variable {m d : Nat} {ls : List Lexeme} {a : Expr} {c : Cursor}

theorem finds_front (hunary : Finds .unary m (unaryFrom D expr m)) {s : Symbol} {op : UnaryOp}
    (hs : (s, op) ∈ UnaryOp.symbols) {offset : Nat} (he : Ended ls) (hlen : ls.length ≤ m)
    (h : unaryFrom D expr (m + 1) ⟨⟨symbol s, offset⟩ :: ls, d⟩ = (.ok a, c)) :
    ∃ (p : Phrase .unary) (rest : List Lexeme),
      p.Stands (⟨symbol s, offset⟩ :: ls) rest ∧ p.tree = a ∧ c = ⟨rest, d⟩ := by
  have hop : UnaryOp.ofKind? (current ⟨⟨symbol s, offset⟩ :: ls, d⟩).kind = some op :=
    UnaryOp.ofKind?_of_mem hs
  rw [unaryFrom, peek_bind, hop] at h
  dsimp only at h
  rw [advance_bind _ _ he] at h
  obtain ⟨_, _, hnested, h⟩ := bind_eq_ok h
  obtain ⟨_, hu, rfl⟩ := (takesLevel_nested _ _).eq_ok hnested
  obtain ⟨u, rest, hstands, rfl, rfl⟩ := hunary he hlen hu
  obtain ⟨rfl, rfl⟩ := pure_eq_ok h
  exact ⟨.front s op hs u, rest,
    ⟨⟨offset, ls, rfl, hstands.spells⟩, hstands.ended, hstands.follows⟩, rfl, rfl⟩

theorem finds_power (hlinked : Finds .linked (n + 1) (linked D expr)) (hm : m ≤ n)
    (hunary : Finds .unary m (unaryFrom D expr m))
    (hop : UnaryOp.ofKind? (current ⟨ls, d⟩).kind = none) (he : Ended ls) (hlen : ls.length ≤ m + 1)
    (h : unaryFrom D expr (m + 1) ⟨ls, d⟩ = (.ok a, c)) :
    ∃ (p : Phrase .unary) (rest : List Lexeme), p.Stands ls rest ∧ p.tree = a ∧ c = ⟨rest, d⟩ := by
  rw [unaryFrom, peek_bind, hop] at h
  obtain ⟨_, _, hbase, h⟩ := bind_eq_ok h
  obtain ⟨b, rest, hb, rfl, rfl⟩ := hlinked he (by omega) hbase
  have hlen₁ := hb.spells.length_eq
  obtain ⟨caret, _, heat, h⟩ := bind_eq_ok h
  cases caret with
  | false =>
    obtain ⟨hne, rfl⟩ := eat_eq_false heat
    obtain ⟨rfl, rfl⟩ := pure_eq_ok h
    have hends : Category.unary.Ends (current ⟨rest, d⟩).kind := ⟨hb.follows.current, hne⟩
    exact ⟨.tight (.base b), rest, ⟨hb.spells, hb.ended, hb.ended.follows hends⟩, rfl, rfl⟩
  | true =>
    obtain ⟨_, r, rfl, he', rfl⟩ := eat_eq_true hb.ended heat
    simp only [List.length_cons] at hlen₁
    obtain ⟨_, _, hnested, h⟩ := bind_eq_ok h
    obtain ⟨_, hx, rfl⟩ := (takesLevel_nested _ _).eq_ok hnested
    obtain ⟨x, rest, hstands, rfl, rfl⟩ := hunary he' (by omega) hx
    obtain ⟨rfl, rfl⟩ := pure_eq_ok h
    exact ⟨.tight (.raised b x), rest,
      ⟨spells_append.mpr ⟨_, hb.spells, _, _, rfl, hstands.spells⟩, hstands.ended,
        hstands.follows⟩, rfl, rfl⟩

end

theorem finds_unaryFrom (hlinked : Finds .linked (n + 1) (linked D expr)) {m : Nat}
    (hm : m ≤ n + 1) : Finds .unary m (unaryFrom D expr m) := by
  induction m with
  | zero =>
    intro ls d a c he hlen h
    exact absurd he.length_pos (by omega)
  | succ m ih =>
    intro ls d a c he hlen h
    have hunary := ih (by omega)
    obtain ⟨k, offset, ls', rfl, htail⟩ := he.exists_cons
    cases hop : UnaryOp.ofKind? k with
    | some op =>
      obtain ⟨s, rfl, hs⟩ := UnaryOp.mem_of_ofKind? hop
      exact finds_front hunary hs (htail (by simp)) (by simpa using hlen) h
    | none => exact finds_power hlinked (by omega) hunary hop he hlen h

theorem endsRun_cons {l : Level} {ls : List Level} {k : LexemeKind} (h : k.EndsRun ls)
    (hl : l.operator? k = none) : k.EndsRun (l :: ls) := by
  refine ⟨h.1, fun l' hl' hmem => ?_⟩
  rcases List.mem_cons.mp hmem with rfl | hmem
  · obtain ⟨op, hop⟩ := Level.exists_operator? hl'
    simp [hl] at hop
  · exact h.2 l' hl' hmem

theorem finds_operandsAfter {l : Level} {ls : List Level} {u : Parse Expr}
    (hruns : Finds (.run ls) (n + 1) (runs ls u)) {m : Nat} (hm : m ≤ n + 1) {lexemes : List Lexeme}
    {d : Nat} {a : List (l.Op × Expr)} {c : Cursor} (he : Ended lexemes)
    (hf : (Category.run ls).Follows (lexemes.map (·.kind))) (hlen : lexemes.length ≤ m)
    (h : operandsAfter l.operator? (runs ls u) m ⟨lexemes, d⟩ = (.ok a, c)) :
    ∃ (p : Phrase (.rest l ls)) (rest : List Lexeme),
      p.Stands lexemes rest ∧ p.tree = a ∧ c = ⟨rest, d⟩ := by
  induction m generalizing lexemes a c with
  | zero => exact absurd he.length_pos (by omega)
  | succ m ih =>
    obtain ⟨k, offset, ls', rfl, htail⟩ := he.exists_cons
    rw [operandsAfter, peek_bind] at h
    cases hop : l.operator? k with
    | none =>
      simp only [current, List.headD_cons, hop] at h
      obtain ⟨rfl, rfl⟩ := pure_eq_ok h
      have hends : (Category.rest l ls).Ends (current ⟨⟨k, offset⟩ :: ls', d⟩).kind :=
        endsRun_cons hf.current hop
      exact ⟨.done, _, ⟨rfl, he, he.follows hends⟩, rfl, rfl⟩
    | some op =>
      obtain ⟨s, rfl, hs⟩ := Level.mem_of_operator? hop
      have he' := htail (by simp)
      simp only [current, List.headD_cons, hop] at h
      rw [advance_bind _ _ he'] at h
      simp only [List.length_cons] at hlen
      obtain ⟨_, _, hnext, h⟩ := bind_eq_ok h
      obtain ⟨next, mid, hstands, rfl, rfl⟩ := hruns he' (by omega) hnext
      have hlen₁ := hstands.spells.length_eq
      obtain ⟨_, _, hrest, h⟩ := bind_eq_ok h
      obtain ⟨p, rest, hp, rfl, rfl⟩ :=
        ih (by omega) hstands.ended hstands.follows (by omega) hrest
      obtain ⟨rfl, rfl⟩ := pure_eq_ok h
      exact ⟨.more s op hs next p, rest,
        ⟨⟨offset, ls', rfl, spells_append.mpr ⟨_, hstands.spells, hp.spells⟩⟩, hp.ended,
          hp.follows⟩, rfl, rfl⟩

theorem finds_runs (ls : List Level) {u : Parse Expr} (hu : Finds .unary (n + 1) u) :
    Finds (.run ls) (n + 1) (runs ls u) := by
  induction ls with
  | nil =>
    intro lexemes d a c he hlen h
    obtain ⟨p, rest, hp, rfl, rfl⟩ := hu he hlen h
    have hends : (Category.run []).Ends (current ⟨rest, d⟩).kind :=
      ⟨hp.follows.current, fun l hl => List.not_mem_nil⟩
    exact ⟨.operand p, rest, ⟨hp.spells, hp.ended, hp.ended.follows hends⟩, rfl, rfl⟩
  | cons l ls ih =>
    intro lexemes d a c he hlen h
    rw [runs_cons] at h
    obtain ⟨_, _, hfirst, h⟩ := bind_eq_ok h
    obtain ⟨first, mid, hstands, rfl, rfl⟩ := ih he hlen hfirst
    have hlen₁ := hstands.spells.length_eq
    obtain ⟨_, _, hrest, h⟩ := bind_eq_ok h
    obtain ⟨p, rest, hp, rfl, rfl⟩ :=
      finds_operandsAfter ih (by omega) hstands.ended hstands.follows (Nat.le_refl _) hrest
    obtain ⟨rfl, rfl⟩ := pure_eq_ok h
    exact ⟨.run first p, rest,
      ⟨spells_append.mpr ⟨_, hstands.spells, hp.spells⟩, hp.ended, hp.follows⟩, rfl, rfl⟩

theorem finds_itemsUntil {e : Entry} {step : Parse e.Tree} (hstep : Finds (.entry e) n step)
    {s : Symbol} {m : Nat} (hm : m ≤ n) {ls : List Lexeme} {d : Nat} {a : List e.Tree} {c : Cursor}
    (he : Ended ls) (hlen : ls.length ≤ m) (h : itemsUntil step s m ⟨ls, d⟩ = (.ok a, c)) :
    ∃ (p : Phrase (.entries e)) (rest : List Lexeme),
      Spells (p.kinds ++ [symbol s]) ls rest ∧ Ended rest ∧ p.tree = a ∧ c = ⟨rest, d⟩ := by
  induction m generalizing ls a c with
  | zero => exact absurd he.length_pos (by omega)
  | succ m ih =>
    obtain ⟨_, _, hx, h⟩ := bind_eq_ok h
    obtain ⟨x, mid, hstands, rfl, rfl⟩ := hstep he (by omega) hx
    have hlen₁ := hstands.spells.length_eq
    obtain ⟨closed, _, heat, h⟩ := bind_eq_ok h
    cases closed with
    | true =>
      obtain ⟨offset, rest, rfl, he', rfl⟩ := eat_eq_true hstands.ended heat
      obtain ⟨rfl, rfl⟩ := pure_eq_ok h
      exact ⟨.last x, rest, spells_append.mpr ⟨_, hstands.spells, _, _, rfl, rfl⟩, he', rfl, rfl⟩
    | false =>
      obtain ⟨hne, rfl⟩ := eat_eq_false heat
      simp only [Bool.false_eq_true, if_false] at h
      obtain ⟨_, _, hcomma, h⟩ := bind_eq_ok h
      obtain ⟨_, r, rfl, he', rfl⟩ := expect_eq_ok hstands.ended hcomma
      simp only [List.length_cons] at hlen₁
      obtain ⟨_, _, hxs, h⟩ := bind_eq_ok h
      obtain ⟨xs, rest, hspells, hrest, rfl, rfl⟩ := ih (by omega) he' (by omega) hxs
      obtain ⟨rfl, rfl⟩ := pure_eq_ok h
      refine ⟨.cons x xs, rest, ?_, hrest, rfl, rfl⟩
      rw [Phrase.kinds_cons_append]
      exact spells_append.mpr ⟨_, hstands.spells, _, _, rfl, hspells⟩

theorem finds_list {e : Entry} {step : Parse e.Tree} (hstep : Finds (.entry e) n step)
    {s : Symbol} {ls : List Lexeme} {d : Nat} {a : List e.Tree} {c : Cursor}
    (he : Ended ls) (hlen : ls.length ≤ n) (h : list step s ⟨ls, d⟩ = (.ok a, c)) :
    ∃ (p : Phrase (.list e)) (rest : List Lexeme),
      Spells (p.kinds ++ [symbol s]) ls rest ∧ Ended rest ∧ p.tree = a ∧ c = ⟨rest, d⟩ := by
  obtain ⟨closed, _, heat, h⟩ := bind_eq_ok h
  cases closed with
  | true =>
    obtain ⟨offset, rest, rfl, he', rfl⟩ := eat_eq_true he heat
    obtain ⟨rfl, rfl⟩ := pure_eq_ok h
    exact ⟨.empty, rest, ⟨_, _, rfl, rfl⟩, he', rfl, rfl⟩
  | false =>
    obtain ⟨-, rfl⟩ := eat_eq_false heat
    obtain ⟨p, rest, hspells, hrest, rfl, rfl⟩ :=
      finds_itemsUntil hstep hlen he (Nat.le_refl _) h
    exact ⟨.filled p, rest, hspells, hrest, rfl, rfl⟩

theorem key_eq_ok {ls : List Lexeme} {d : Nat} {s : String} {c : Cursor} (he : Ended ls)
    (h : key ⟨ls, d⟩ = (.ok s, c)) :
    ∃ k offset ls', ls = ⟨k, offset⟩ :: ls' ∧ k.key? = some s ∧ Ended ls' ∧ c = ⟨ls', d⟩ := by
  obtain ⟨k, offset, ls', rfl, htail⟩ := he.exists_cons
  rw [key, peek_bind] at h
  cases k with
  | name t | string t =>
    have he' := htail (by simp)
    change (advance >>= fun _ => pure t) _ = _ at h
    rw [advance_bind _ _ he'] at h
    obtain ⟨rfl, rfl⟩ := pure_eq_ok h
    exact ⟨_, offset, ls', rfl, rfl, he', rfl⟩
  | number | symbol | eof => cases h

theorem property_eq_ok {ls : List Lexeme} {d : Nat} {s : String} {c : Cursor} (he : Ended ls)
    (h : property ⟨ls, d⟩ = (.ok s, c)) :
    ∃ offset ls', ls = ⟨.name s, offset⟩ :: ls' ∧ Ended ls' ∧ c = ⟨ls', d⟩ := by
  obtain ⟨k, offset, ls', rfl, htail⟩ := he.exists_cons
  rw [property, peek_bind] at h
  cases k with
  | name t =>
    have he' := htail (by simp)
    change (advance >>= fun _ => pure t) _ = _ at h
    rw [advance_bind _ _ he'] at h
    obtain ⟨rfl, rfl⟩ := pure_eq_ok h
    exact ⟨offset, ls', rfl, he', rfl⟩
  | number | string | symbol | eof => cases h

theorem finds_item (hexpr : Finds .expr n expr) : Finds (.entry .item) n expr := by
  intro ls d a c he hlen h
  obtain ⟨p, rest, hp, rfl, rfl⟩ := hexpr he hlen h
  exact ⟨.item p, rest, ⟨hp.spells, hp.ended, hp.follows⟩, rfl, rfl⟩

theorem finds_field (hexpr : Finds .expr n expr) : Finds (.entry .field) n (field expr) := by
  intro ls d a c he hlen h
  obtain ⟨s, _, hkey, h⟩ := bind_eq_ok h
  obtain ⟨k, offset, r₁, rfl, hk, he₁, rfl⟩ := key_eq_ok he hkey
  obtain ⟨_, _, hcolon, h⟩ := bind_eq_ok h
  obtain ⟨offset', r₂, rfl, he₂, rfl⟩ := expect_eq_ok he₁ hcolon
  simp only [List.length_cons] at hlen
  obtain ⟨_, _, hvalue, h⟩ := bind_eq_ok h
  obtain ⟨p, rest, hp, rfl, rfl⟩ := hexpr he₂ (by omega) hvalue
  obtain ⟨rfl, rfl⟩ := pure_eq_ok h
  exact ⟨.field k s hk p, rest,
    ⟨⟨offset, _, rfl, offset', r₂, rfl, hp.spells⟩, hp.ended, hp.follows⟩, rfl, rfl⟩

theorem primary_ne_ok {k : LexemeKind} (hk : k.opensPrimary = false) {offset d : Nat}
    {ls : List Lexeme} {a : Expr} {c : Cursor} : primary expr ⟨⟨k, offset⟩ :: ls, d⟩ ≠ (.ok a, c) := by
  intro h
  rw [primary, peek_bind] at h
  cases k with
  | symbol s => cases s <;> first
    | exact absurd hk (by decide)
    | cases h
  | eof => cases h
  | _ => simp [opensPrimary] at hk

section

variable {m : Nat} {e : Expr} {offset d : Nat} {ls : List Lexeme} {a : Expr} {c : Cursor}

theorem finds_member (hlinks : FindsLinks m (links D expr m)) (he : Ended ls) (hlen : ls.length ≤ m)
    (h : links D expr (m + 1) e ⟨⟨symbol .dot, offset⟩ :: ls, d⟩ = (.ok a, c)) :
    ∃ (p : Phrase .links) (rest : List Lexeme),
      p.Stands (⟨symbol .dot, offset⟩ :: ls) rest ∧ p.tree e = a ∧ c = ⟨rest, d⟩ := by
  rw [links, peek_bind] at h
  obtain ⟨_, hinner, rfl⟩ := (takesLevel_charged _ _).eq_ok h
  rw [advance_bind _ _ he] at hinner
  obtain ⟨s, _, hproperty, hinner⟩ := bind_eq_ok hinner
  obtain ⟨offset', r, rfl, he₁, rfl⟩ := property_eq_ok he hproperty
  simp only [List.length_cons] at hlen
  obtain ⟨p, rest, hp, rfl, rfl⟩ := hlinks he₁ (by omega) hinner
  exact ⟨.member s p, rest,
    ⟨⟨offset, _, rfl, offset', r, rfl, hp.spells⟩, hp.ended, hp.follows⟩, rfl, rfl⟩

theorem finds_index (hexpr : Finds .expr n expr) (hm : m ≤ n)
    (hlinks : FindsLinks m (links D expr m)) (he : Ended ls) (hlen : ls.length ≤ m)
    (h : links D expr (m + 1) e ⟨⟨symbol .openBracket, offset⟩ :: ls, d⟩ = (.ok a, c)) :
    ∃ (p : Phrase .links) (rest : List Lexeme),
      p.Stands (⟨symbol .openBracket, offset⟩ :: ls) rest ∧ p.tree e = a ∧ c = ⟨rest, d⟩ := by
  rw [links, peek_bind] at h
  obtain ⟨_, hinner, rfl⟩ := (takesLevel_charged _ _).eq_ok h
  rw [advance_bind _ _ he] at hinner
  obtain ⟨_, _, hindex, hinner⟩ := bind_eq_ok hinner
  obtain ⟨key, mid, hkey, rfl, rfl⟩ := hexpr he (by omega) hindex
  have hlen₁ := hkey.spells.length_eq
  obtain ⟨_, _, hclose, hinner⟩ := bind_eq_ok hinner
  obtain ⟨offset', r, rfl, he₁, rfl⟩ := expect_eq_ok hkey.ended hclose
  simp only [List.length_cons] at hlen₁
  obtain ⟨p, rest, hp, rfl, rfl⟩ := hlinks he₁ (by omega) hinner
  exact ⟨.index key p, rest,
    ⟨⟨offset, _, rfl, spells_append.mpr ⟨_, hkey.spells, offset', r, rfl, hp.spells⟩⟩,
      hp.ended, hp.follows⟩, rfl, rfl⟩

theorem finds_call (hexpr : Finds .expr n expr) (hm : m ≤ n)
    (hlinks : FindsLinks m (links D expr m)) (he : Ended ls) (hlen : ls.length ≤ m)
    (h : links D expr (m + 1) e ⟨⟨symbol .openParen, offset⟩ :: ls, d⟩ = (.ok a, c)) :
    ∃ (p : Phrase .links) (rest : List Lexeme),
      p.Stands (⟨symbol .openParen, offset⟩ :: ls) rest ∧ p.tree e = a ∧ c = ⟨rest, d⟩ := by
  rw [links, peek_bind] at h
  obtain ⟨_, hinner, rfl⟩ := (takesLevel_charged _ _).eq_ok h
  rw [advance_bind _ _ he] at hinner
  obtain ⟨_, _, hargs, hinner⟩ := bind_eq_ok hinner
  obtain ⟨args, mid, hspells, hmid, rfl, rfl⟩ := finds_list (finds_item hexpr) he (by omega) hargs
  have hlen₁ := hspells.length_eq
  obtain ⟨p, rest, hp, rfl, rfl⟩ := hlinks hmid (by omega) hinner
  have happend := spells_append.mpr ⟨_, hspells, hp.spells⟩
  rw [List.append_assoc] at happend
  exact ⟨.call args p, rest, ⟨⟨offset, _, rfl, happend⟩, hp.ended, hp.follows⟩, rfl, rfl⟩

end

theorem finds_links (hexpr : Finds .expr n expr) {m : Nat} (hm : m ≤ n + 1) :
    FindsLinks m (links D expr m) := by
  induction m with
  | zero =>
    intro e ls d a c he hlen h
    exact absurd he.length_pos (by omega)
  | succ m ih =>
    intro e ls d a c he hlen h
    have hlinks := ih (by omega)
    obtain ⟨k, offset, ls', rfl, htail⟩ := he.exists_cons
    cases hlink : k.isLink with
    | false =>
      have hends : Category.links.Ends (current ⟨⟨k, offset⟩ :: ls', d⟩).kind := hlink
      rw [Phrase.links_of_not_isLink (c := ⟨⟨k, offset⟩ :: ls', d⟩) hlink] at h
      cases h
      exact ⟨.unlinked, _, ⟨rfl, he, he.follows hends⟩, rfl, rfl⟩
    | true =>
      simp only [List.length_cons] at hlen
      unfold isLink at hlink
      split at hlink
      · exact finds_member hlinks (htail (by simp)) (by omega) h
      · exact finds_index hexpr (by omega) hlinks (htail (by simp)) (by omega) h
      · exact finds_call hexpr (by omega) hlinks (htail (by simp)) (by omega) h
      · simp at hlink

theorem opener_of_atom?_eq_none {k : LexemeKind} (hatom : k.atom? = none)
    (hopens : k.opensPrimary = true) :
    k = symbol .openParen ∨ k = symbol .openBracket ∨ k = symbol .openBrace := by
  cases k with
  | symbol s => cases s <;> simp [atom?, opensPrimary] at hatom hopens ⊢
  | eof => simp [opensPrimary] at hopens
  | _ => simp [atom?] at hatom

section

variable {offset d : Nat} {ls : List Lexeme} {a : Expr} {c : Cursor}

theorem finds_parens (hexpr : Finds .expr n expr) (he : Ended ls) (hlen : ls.length ≤ n)
    (h : primary expr ⟨⟨symbol .openParen, offset⟩ :: ls, d⟩ = (.ok a, c)) :
    ∃ (p : Phrase .primary) (rest : List Lexeme),
      p.Stands (⟨symbol .openParen, offset⟩ :: ls) rest ∧ p.tree = a ∧ c = ⟨rest, d⟩ := by
  rw [Phrase.primary_parens he] at h
  obtain ⟨_, _, hinner, h⟩ := bind_eq_ok h
  obtain ⟨p, mid, hp, rfl, rfl⟩ := hexpr he hlen hinner
  obtain ⟨_, _, hclose, h⟩ := bind_eq_ok h
  obtain ⟨offset', rest, rfl, he₁, rfl⟩ := expect_eq_ok hp.ended hclose
  obtain ⟨rfl, rfl⟩ := pure_eq_ok h
  exact ⟨.parens p, rest, ⟨⟨offset, _, rfl,
    spells_append.mpr ⟨_, hp.spells, offset', rest, rfl, rfl⟩⟩, he₁, he₁.follows_primary⟩, rfl, rfl⟩

theorem finds_array (hexpr : Finds .expr n expr) (he : Ended ls) (hlen : ls.length ≤ n)
    (h : primary expr ⟨⟨symbol .openBracket, offset⟩ :: ls, d⟩ = (.ok a, c)) :
    ∃ (p : Phrase .primary) (rest : List Lexeme),
      p.Stands (⟨symbol .openBracket, offset⟩ :: ls) rest ∧ p.tree = a ∧ c = ⟨rest, d⟩ := by
  rw [Phrase.primary_array he] at h
  obtain ⟨_, _, hitems, h⟩ := bind_eq_ok h
  obtain ⟨p, rest, hspells, he₁, rfl, rfl⟩ := finds_list (finds_item hexpr) he hlen hitems
  obtain ⟨rfl, rfl⟩ := pure_eq_ok h
  exact ⟨.array p, rest, ⟨⟨offset, ls, rfl, hspells⟩, he₁, he₁.follows_primary⟩, rfl, rfl⟩

theorem finds_object (hexpr : Finds .expr n expr) (he : Ended ls) (hlen : ls.length ≤ n)
    (h : primary expr ⟨⟨symbol .openBrace, offset⟩ :: ls, d⟩ = (.ok a, c)) :
    ∃ (p : Phrase .primary) (rest : List Lexeme),
      p.Stands (⟨symbol .openBrace, offset⟩ :: ls) rest ∧ p.tree = a ∧ c = ⟨rest, d⟩ := by
  rw [Phrase.primary_object he] at h
  obtain ⟨_, _, hfields, h⟩ := bind_eq_ok h
  obtain ⟨p, rest, hspells, he₁, rfl, rfl⟩ := finds_list (finds_field hexpr) he hlen hfields
  obtain ⟨rfl, rfl⟩ := pure_eq_ok h
  exact ⟨.object p, rest, ⟨⟨offset, ls, rfl, hspells⟩, he₁, he₁.follows_primary⟩, rfl, rfl⟩

end

theorem finds_primary (hexpr : Finds .expr n expr) : Finds .primary (n + 1) (primary expr) := by
  intro ls d a c he hlen h
  obtain ⟨k, offset, ls', rfl, htail⟩ := he.exists_cons
  simp only [List.length_cons] at hlen
  cases hatom : k.atom? with
  | some e =>
    have he' := htail (by rintro rfl; simp [atom?] at hatom)
    rw [Phrase.primary_of_atom hatom he'] at h
    cases h
    exact ⟨.atom k _ hatom, ls', ⟨⟨offset, ls', rfl, rfl⟩, he', he'.follows_primary⟩, rfl, rfl⟩
  | none =>
    cases hopens : k.opensPrimary with
    | false => exact absurd h (primary_ne_ok hopens)
    | true =>
      rcases opener_of_atom?_eq_none hatom hopens with rfl | rfl | rfl
      · exact finds_parens hexpr (htail (by simp)) (by omega) h
      · exact finds_array hexpr (htail (by simp)) (by omega) h
      · exact finds_object hexpr (htail (by simp)) (by omega) h

theorem finds_linked (hexpr : Finds .expr n expr) : Finds .linked (n + 1) (linked D expr) := by
  intro ls d a c he hlen h
  obtain ⟨_, _, hprimary, h⟩ := bind_eq_ok h
  obtain ⟨p, mid, hp, rfl, rfl⟩ := finds_primary hexpr he hlen hprimary
  have hlen₁ := hp.spells.length_eq
  obtain ⟨links, rest, hlinks, rfl, rfl⟩ :=
    finds_links hexpr (by omega) hp.ended (Nat.le_refl _) h
  exact ⟨.linked p links, rest,
    ⟨spells_append.mpr ⟨_, hp.spells, hlinks.spells⟩, hlinks.ended, hlinks.follows⟩, rfl, rfl⟩

theorem finds_expression (D n : Nat) : Finds .expr n (expression D n) := by
  induction n with
  | zero =>
    intro ls d a c he hlen h
    exact absurd he.length_pos (by omega)
  | succ n ih =>
    have hunary : Finds .unary (n + 1) (unaryLevel D (expression D n)) :=
      fun ls d a c he hlen h =>
        finds_unaryFrom (finds_linked ih) hlen he (Nat.le_refl _) h
    intro ls d a c he hlen h
    obtain ⟨_, hternary, rfl⟩ := (takesLevel_nested _ _).eq_ok h
    obtain ⟨p, rest, hp, rfl, rfl⟩ :=
      finds_ternary ih (finds_runs Level.all hunary) he hlen hternary
    exact ⟨p, rest, hp, rfl, rfl⟩

end Expr
end TemplateBar.Template
