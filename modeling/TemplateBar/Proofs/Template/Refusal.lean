import TemplateBar.Proofs.Template.Sound
import TemplateBar.Proofs.Template.Stuck

/-!
# Where the parser stops

A step of the parser that fails with a syntax error names the lexeme at which its category is stuck.
The lexemes in front of it may belong to parts that have been read, which are phrases that end there,
and then to the part that failed; so each case puts one of the ways to be stuck behind these phrases.
As with what is read, the induction on the nesting bound closes the circle.
-/
namespace TemplateBar.Template

open Parse LexemeKind
open Category (Follows)

/-- Kinds of lexemes that are stuck at the one with the offset stand at the front. -/
def StuckAt (cat : Category) (follows : List LexemeKind → Prop) (ls : List Lexeme)
    (offset : Nat) : Prop :=
  ∃ ks k rest, Spells ks ls (⟨k, offset⟩ :: rest) ∧ Stuck cat follows ks k

/-- Where the step fails with a syntax error before at most `bound` lexemes, it is stuck there. -/
def Refuses {α : Type} (cat : Category) (follows : List LexemeKind → Prop) (bound : Nat)
    (step : Parse α) : Prop :=
  ∀ ⦃ls : List Lexeme⦄ ⦃d offset : Nat⦄ ⦃cause : SyntaxCause⦄ ⦃c : Cursor⦄, Ended ls →
    ls.length ≤ bound → step ⟨ls, d⟩ = (.error (.syntaxError offset cause), c) →
      StuckAt cat follows ls offset

theorem spells_singleton (k : LexemeKind) (offset : Nat) (ls : List Lexeme) :
    Spells [k] (⟨k, offset⟩ :: ls) ls :=
  ⟨offset, ls, rfl, rfl⟩

theorem Spells.concat {ks : List LexemeKind} {ls ls' : List Lexeme} {k : LexemeKind} {offset : Nat}
    (h : Spells ks ls (⟨k, offset⟩ :: ls')) : Spells (ks ++ [k]) ls ls' :=
  spells_append.mpr ⟨_, h, spells_singleton k offset ls'⟩

namespace StuckAt

variable {cat cat' : Category} {follows follows' : List LexemeKind → Prop}
  {ls mid : List Lexeme} {offset : Nat}

/-- A whole is stuck where the part behind the front is, if it is for all kinds that can be. -/
theorem behind {front : List LexemeKind} (hs : Spells front ls mid)
    (h : StuckAt cat follows mid offset)
    (hstuck : ∀ ks k r, mid.map (·.kind) = ks ++ k :: r → Stuck cat follows ks k →
      Stuck cat' follows' (front ++ ks) k) : StuckAt cat' follows' ls offset := by
  obtain ⟨ks, k, rest, hmid, h⟩ := h
  exact ⟨_, k, rest, spells_append.mpr ⟨mid, hs, hmid⟩, hstuck ks k _ hmid.kinds_eq h⟩

theorem imp (h : StuckAt cat follows ls offset)
    (hstuck : ∀ ks k r, ls.map (·.kind) = ks ++ k :: r → Stuck cat follows ks k →
      Stuck cat' follows' ks k) : StuckAt cat' follows' ls offset :=
  behind (show Spells [] ls ls from rfl) h hstuck

end StuckAt

namespace Parse

variable {α β : Type} {D d offset : Nat} {cause : SyntaxCause} {ls : List Lexeme} {c : Cursor}

theorem bind_eq_error {p : Parse α} {f : α → Parse β} {c c' : Cursor} {e : EvalError}
    (h : (p >>= f) c = (.error e, c')) :
    p c = (.error e, c') ∨ ∃ a c₁, p c = (.ok a, c₁) ∧ f a c₁ = (.error e, c') := by
  rw [bind_apply] at h
  cases hp : p c with
  | mk r c₁ =>
    rw [hp] at h
    cases r with
    | error e' =>
      cases h
      exact .inl rfl
    | ok a => exact .inr ⟨a, c₁, rfl, h⟩

/-- The rest of a step that only puts a result together does not fail. -/
theorem bind_pure_eq_error {p : Parse α} {f : α → β} {c c' : Cursor} {e : EvalError}
    (h : (p >>= fun a => pure (f a)) c = (.error e, c')) : p c = (.error e, c') := by
  rcases bind_eq_error h with h | ⟨a, c₁, -, h⟩
  · exact h
  · cases h

theorem eat_bind {s : Symbol} {f : Bool → Parse β} {r : Except EvalError β × Cursor}
    (he : Ended ls) (h : (eat s >>= f) ⟨ls, d⟩ = r) :
    (∃ offset ls', ls = ⟨.symbol s, offset⟩ :: ls' ∧ Ended ls' ∧ f true ⟨ls', d⟩ = r) ∨
      ((current ⟨ls, d⟩).kind ≠ .symbol s ∧ f false ⟨ls, d⟩ = r) := by
  by_cases hk : (current ⟨ls, d⟩).kind = .symbol s
  · obtain ⟨k, offset, ls', rfl, htail⟩ := he.exists_cons
    obtain rfl : k = .symbol s := hk
    have he' := htail (by simp)
    rw [bind_of_ok (eat_of_eq he' d)] at h
    exact .inl ⟨offset, ls', rfl, he', h⟩
  · rw [bind_of_ok (eat_of_ne hk)] at h
    exact .inr ⟨hk, h⟩

theorem key_eq_error (he : Ended ls)
    (h : Expr.key ⟨ls, d⟩ = (.error (.syntaxError offset cause), c)) :
    ∃ k ls', ls = ⟨k, offset⟩ :: ls' ∧ k.key? = none := by
  obtain ⟨k, offset', ls', rfl, -⟩ := he.exists_cons
  rw [Expr.key, peek_bind] at h
  cases k <;> cases h
  all_goals exact ⟨_, ls', rfl, rfl⟩

theorem property_eq_error (he : Ended ls)
    (h : Expr.property ⟨ls, d⟩ = (.error (.syntaxError offset cause), c)) :
    ∃ k ls', ls = ⟨k, offset⟩ :: ls' ∧ ∀ s, k ≠ .name s := by
  obtain ⟨k, offset', ls', rfl, -⟩ := he.exists_cons
  rw [Expr.property, peek_bind] at h
  cases k <;> cases h
  all_goals exact ⟨_, ls', rfl, by simp⟩

theorem expect_eq_error {s : Symbol} (he : Ended ls)
    (h : expect s ⟨ls, d⟩ = (.error (.syntaxError offset cause), c)) :
    ∃ k ls', ls = ⟨k, offset⟩ :: ls' ∧ k ≠ .symbol s := by
  obtain ⟨k, offset', ls', rfl, -⟩ := he.exists_cons
  unfold expect at h
  split at h
  · cases h
  · rename_i hk
    cases h
    exact ⟨k, ls', rfl, hk⟩

end Parse

theorem TakesLevel.eq_syntaxError {β : Type} {D d offset : Nat} {cause : SyntaxCause} {p : Parse β}
    {ls : List Lexeme} {r : Except EvalError β × Cursor} {c : Cursor}
    (hr : TakesLevel D p ⟨ls, d⟩ r) (h : r = (.error (.syntaxError offset cause), c)) :
    ∃ c', p ⟨ls, d + 1⟩ = (.error (.syntaxError offset cause), c') := by
  obtain rfl := h
  by_cases hd : d + 1 ≤ D
  · cases hp : p ⟨ls, d + 1⟩ with
    | mk r' c' =>
      cases hr.granted hd r' c' hp
      exact ⟨c', rfl⟩
  · have herr := hr.refused (Nat.not_le.mp hd)
    simp at herr

namespace Expr

variable {D n : Nat} {expr : Parse Expr}

section

variable (hexpr : Finds .expr n expr) (hrefuses : Refuses .expr (Follows .expr) n expr)
include hexpr hrefuses

theorem refuses_ternary (hruns : Finds (.run Level.all) (n + 1) (runs Level.all (unaryLevel D expr)))
    (hrefused : Refuses (.run Level.all) (Follows (.run Level.all)) (n + 1)
      (runs Level.all (unaryLevel D expr))) :
    Refuses .expr (Follows .expr) (n + 1) (ternary D expr) := by
  intro ls d offset cause c he hlen h
  rcases bind_eq_error h with h | ⟨_, _, hcond, h⟩
  · exact (hrefused he hlen h).imp fun _ _ _ _ => .condition
  obtain ⟨p, mid, hp, rfl, rfl⟩ := hruns he hlen hcond
  have hlen₁ := hp.spells.length_eq
  rcases eat_bind hp.ended h with ⟨offset', r₁, rfl, he₁, h⟩ | ⟨-, h⟩
  case inr => cases h
  simp only [List.length_cons] at hlen₁
  have hquestion := hp.spells.concat
  rcases bind_eq_error h with h | ⟨_, _, hthen, h⟩
  · exact (hrefuses he₁ (by omega) h).behind hquestion fun _ _ _ _ => .thenCase p
  obtain ⟨a, mid, ha, rfl, rfl⟩ := hexpr he₁ (by omega) hthen
  have hlen₂ := ha.spells.length_eq
  rcases bind_eq_error h with h | ⟨_, _, hcolon, h⟩
  · obtain ⟨k, r₂, rfl, hne⟩ := expect_eq_error ha.ended h
    exact ⟨_, k, r₂, spells_append.mpr ⟨_, hquestion, ha.spells⟩, .colon p a ha.follows.head hne⟩
  obtain ⟨offset'', r₂, rfl, he₂, rfl⟩ := expect_eq_ok ha.ended hcolon
  simp only [List.length_cons] at hlen₂
  exact (hrefuses he₂ (by omega) (bind_pure_eq_error h)).behind
    (spells_append.mpr ⟨_, hquestion, ha.spells.concat⟩) fun _ _ _ _ => .elseCase p a

end

section

variable {m d offset : Nat} {cause : SyntaxCause} {ls : List Lexeme} {c : Cursor}

theorem refuses_front (hunary : Refuses .unary (Follows .unary) m (unaryFrom D expr m)) {s : Symbol}
    {op : UnaryOp} (hs : (s, op) ∈ UnaryOp.symbols) {offset' : Nat} (he : Ended ls)
    (hlen : ls.length ≤ m) (h : unaryFrom D expr (m + 1) ⟨⟨symbol s, offset'⟩ :: ls, d⟩ =
      (.error (.syntaxError offset cause), c)) :
    StuckAt .unary (Follows .unary) (⟨symbol s, offset'⟩ :: ls) offset := by
  have hop : UnaryOp.ofKind? (current ⟨⟨symbol s, offset'⟩ :: ls, d⟩).kind = some op :=
    UnaryOp.ofKind?_of_mem hs
  rw [unaryFrom, peek_bind, hop] at h
  dsimp only at h
  rw [advance_bind _ _ he] at h
  obtain ⟨_, hu⟩ := (takesLevel_nested _ _).eq_syntaxError (bind_pure_eq_error h)
  exact (hunary he hlen hu).behind (spells_singleton _ _ _) fun _ _ _ _ => .front hs

theorem refuses_power (hlinked : Finds .linked (n + 1) (linked D expr))
    (hrefused : Refuses .linked (Follows .linked) (n + 1) (linked D expr)) (hm : m ≤ n)
    (hunary : Refuses .unary (Follows .unary) m (unaryFrom D expr m))
    (hop : UnaryOp.ofKind? (current ⟨ls, d⟩).kind = none) (he : Ended ls) (hlen : ls.length ≤ m + 1)
    (h : unaryFrom D expr (m + 1) ⟨ls, d⟩ = (.error (.syntaxError offset cause), c)) :
    StuckAt .power (Follows .power) ls offset := by
  rw [unaryFrom, peek_bind, hop] at h
  dsimp only at h
  rcases bind_eq_error h with h | ⟨_, _, hbase, h⟩
  · exact (hrefused he (by omega) h).imp fun _ _ _ _ => .base
  obtain ⟨b, rest, hb, rfl, rfl⟩ := hlinked he (by omega) hbase
  have hlen₁ := hb.spells.length_eq
  rcases eat_bind hb.ended h with ⟨offset', r, rfl, he', h⟩ | ⟨-, h⟩
  case inr => cases h
  simp only [List.length_cons] at hlen₁
  obtain ⟨_, hx⟩ := (takesLevel_nested _ _).eq_syntaxError (bind_pure_eq_error h)
  exact (hunary he' (by omega) hx).behind hb.spells.concat fun _ _ _ _ => .exponent b

end

theorem refuses_unaryFrom (hlinked : Finds .linked (n + 1) (linked D expr))
    (hrefused : Refuses .linked (Follows .linked) (n + 1) (linked D expr)) {m : Nat}
    (hm : m ≤ n + 1) : Refuses .unary (Follows .unary) m (unaryFrom D expr m) := by
  induction m with
  | zero =>
    intro ls d offset cause c he hlen h
    exact absurd he.length_pos (by omega)
  | succ m ih =>
    intro ls d offset cause c he hlen h
    have hunary := ih (by omega)
    obtain ⟨k, offset', ls', rfl, htail⟩ := he.exists_cons
    cases hop : UnaryOp.ofKind? k with
    | some op =>
      obtain ⟨s, rfl, hs⟩ := UnaryOp.mem_of_ofKind? hop
      exact refuses_front hunary hs (htail (by simp)) (by simpa using hlen) h
    | none =>
      have hpower : StuckAt .power (Follows .power) (⟨k, offset'⟩ :: ls') offset :=
        refuses_power hlinked hrefused (by omega) hunary hop he hlen h
      -- No other phrase begins with an operator in front, as the first lexeme is none.
      refine hpower.imp fun ks k' r hkinds => .tight fun s op hs hhead => ?_
      obtain rfl : k = symbol s := by
        cases ks <;> exact (List.cons.inj hkinds).1.trans (Option.some.inj hhead)
      rw [UnaryOp.ofKind?_of_mem hs] at hop
      simp at hop

theorem follows_of_kinds {cat : Category} {ls : List Lexeme} {ks r : List LexemeKind}
    {k : LexemeKind} (h : cat.Follows (ls.map (·.kind))) (hkinds : ls.map (·.kind) = ks ++ k :: r) :
    cat.Follows (ks ++ [k]) :=
  Stuck.follows_congr (hkinds ▸ h) []

theorem refuses_operandsAfter {l : Level} {ls : List Level} (hnd : (l :: ls).Nodup) {u : Parse Expr}
    (hruns : Finds (.run ls) (n + 1) (runs ls u))
    (hrefused : Refuses (.run ls) (Follows (.run ls)) (n + 1) (runs ls u)) {m : Nat}
    (hm : m ≤ n + 1) : Refuses (.rest l ls) (Follows (.rest l ls)) m
      (operandsAfter l.operator? (runs ls u) m) := by
  induction m with
  | zero =>
    intro lexemes d offset cause c he hlen h
    exact absurd he.length_pos (by omega)
  | succ m ih =>
    intro lexemes d offset cause c he hlen h
    obtain ⟨k, offset', ls', rfl, htail⟩ := he.exists_cons
    rw [operandsAfter, peek_bind] at h
    cases hop : l.operator? k with
    | none =>
      simp only [current, List.headD_cons, hop] at h
      cases h
    | some op =>
      obtain ⟨s, rfl, hs⟩ := Level.mem_of_operator? hop
      have he' := htail (by simp)
      simp only [current, List.headD_cons, hop] at h
      rw [advance_bind _ _ he'] at h
      simp only [List.length_cons] at hlen
      rcases bind_eq_error h with h | ⟨_, _, hnext, h⟩
      · exact (hrefused he' (by omega) h).behind (spells_singleton _ _ _)
          fun _ _ _ _ => .next hs (List.nodup_cons.mp hnd).1
      obtain ⟨next, mid, hstands, rfl, rfl⟩ := hruns he' (by omega) hnext
      have hlen₁ := hstands.spells.length_eq
      have hfront : Spells (symbol s :: next.kinds) (⟨symbol s, offset'⟩ :: ls') mid :=
        ⟨offset', ls', rfl, hstands.spells⟩
      exact (ih (by omega) hstands.ended (by omega) (bind_pure_eq_error h)).behind hfront
        fun _ _ _ hkinds => .behind_next hs next hnd (follows_of_kinds hstands.follows hkinds)

theorem refuses_runs {ls : List Level} (hnd : ls.Nodup) {u : Parse Expr}
    (hu : Finds .unary (n + 1) u) (hrefused : Refuses .unary (Follows .unary) (n + 1) u) :
    Refuses (.run ls) (Follows (.run ls)) (n + 1) (runs ls u) := by
  induction ls with
  | nil =>
    intro lexemes d offset cause c he hlen h
    exact (hrefused he hlen h).imp fun _ _ _ _ => .operand
  | cons l ls ih =>
    intro lexemes d offset cause c he hlen h
    have hl := List.nodup_cons.mp hnd
    rw [runs_cons] at h
    rcases bind_eq_error h with h | ⟨_, _, hfirst, h⟩
    · exact (ih hl.2 he hlen h).imp fun _ _ _ _ => .first hl.1
    obtain ⟨first, mid, hstands, rfl, rfl⟩ := finds_runs ls hu he hlen hfirst
    have hlen₁ := hstands.spells.length_eq
    have hrest := refuses_operandsAfter hnd (finds_runs ls hu) (ih hl.2) (m := mid.length)
      (by omega) hstands.ended (Nat.le_refl _) (bind_pure_eq_error h)
    exact hrest.behind hstands.spells fun _ _ _ hkinds =>
      .rest first hnd (follows_of_kinds hstands.follows hkinds)

section

variable {e : Entry} {step : Parse e.Tree} (hstep : Finds (.entry e) n step)
  (hrefused : Refuses (.entry e) (Follows (.entry e)) n step) {s : Symbol}
  (hs : (symbol s).isCloser = true)
include hstep hrefused hs

theorem refuses_itemsUntil {m : Nat} (hm : m ≤ n) :
    Refuses (.entries e) (ClosedBy s) m (itemsUntil step s m) := by
  induction m with
  | zero =>
    intro ls d offset cause c he hlen h
    exact absurd he.length_pos (by omega)
  | succ m ih =>
    intro ls d offset cause c he hlen h
    rcases bind_eq_error h with h | ⟨_, _, hx, h⟩
    · exact (hrefused he (by omega) h).imp fun _ _ _ _ => .entry hs
    obtain ⟨x, mid, hstands, rfl, rfl⟩ := hstep he (by omega) hx
    have hlen₁ := hstands.spells.length_eq
    rcases eat_bind hstands.ended h with ⟨_, _, _, _, h⟩ | ⟨hne, h⟩
    case inl => cases h
    simp only [Bool.false_eq_true, if_false] at h
    rcases bind_eq_error h with h | ⟨_, _, hcomma, h⟩
    · obtain ⟨k, r, rfl, hcomma⟩ := expect_eq_error hstands.ended h
      have hk : k.EndsExpr := hstands.follows.head
      exact ⟨_, k, r, hstands.spells, .comma hs x hk hcomma hne⟩
    obtain ⟨offset', r, rfl, he', rfl⟩ := expect_eq_ok hstands.ended hcomma
    simp only [List.length_cons] at hlen₁
    exact (ih (by omega) he' (by omega) (bind_pure_eq_error h)).behind hstands.spells.concat
      fun _ _ _ _ => .later hs x

theorem refuses_list : Refuses (.list e) (ClosedBy s) n (list step s) := by
  intro ls d offset cause c he hlen h
  rcases eat_bind he h with ⟨_, _, _, _, h⟩ | ⟨hne, h⟩
  case inl => cases h
  have hentries := refuses_itemsUntil hstep hrefused hs hlen he (Nat.le_refl _) h
  -- The first lexeme does not close the list, so no phrase that begins so is the empty one.
  refine hentries.imp fun ks k r hkinds => .filled fun hhead => hne ?_
  obtain ⟨k', offset', ls', rfl, -⟩ := he.exists_cons
  cases ks <;> exact (List.cons.inj hkinds).1.trans (Option.some.inj hhead)

end

theorem refuses_item (hrefuses : Refuses .expr (Follows .expr) n expr) :
    Refuses (.entry .item) (Follows (.entry .item)) n expr :=
  fun _ _ _ _ _ he hlen h => (hrefuses he hlen h).imp fun _ _ _ _ => .item

theorem refuses_field (hrefuses : Refuses .expr (Follows .expr) n expr) :
    Refuses (.entry .field) (Follows (.entry .field)) n (field expr) := by
  intro ls d offset cause c he hlen h
  rcases bind_eq_error h with h | ⟨s, _, hkey, h⟩
  · obtain ⟨k, ls', rfl, hk⟩ := key_eq_error he h
    exact ⟨[], k, ls', rfl, .key hk⟩
  obtain ⟨k, offset', r₁, rfl, hk, he₁, rfl⟩ := key_eq_ok he hkey
  rcases bind_eq_error h with h | ⟨_, _, hcolon, h⟩
  · obtain ⟨k', ls', rfl, hne⟩ := expect_eq_error he₁ h
    exact ⟨[k], k', ls', spells_singleton k offset' _, .keyColon hk hne⟩
  obtain ⟨offset'', r₂, rfl, he₂, rfl⟩ := expect_eq_ok he₁ hcolon
  simp only [List.length_cons] at hlen
  exact (hrefuses he₂ (by omega) (bind_pure_eq_error h)).behind
    (spells_singleton k offset' _).concat fun _ _ _ _ => .value hk

section

variable (hexpr : Finds .expr n expr) (hrefuses : Refuses .expr (Follows .expr) n expr)
include hexpr hrefuses

section

variable {d offset offset' : Nat} {cause : SyntaxCause} {ls : List Lexeme} {c : Cursor}

theorem refuses_parens (he : Ended ls) (hlen : ls.length ≤ n)
    (h : primary expr ⟨⟨symbol .openParen, offset'⟩ :: ls, d⟩ =
      (.error (.syntaxError offset cause), c)) :
    StuckAt .primary (Follows .primary) (⟨symbol .openParen, offset'⟩ :: ls) offset := by
  have hopen := spells_singleton (symbol .openParen) offset' ls
  rw [Phrase.primary_parens he] at h
  rcases bind_eq_error h with h | ⟨_, _, hinner, h⟩
  · exact (hrefuses he hlen h).behind hopen fun _ _ _ _ => .parens
  obtain ⟨p, mid, hp, rfl, rfl⟩ := hexpr he hlen hinner
  obtain ⟨k, r, rfl, hne⟩ := expect_eq_error hp.ended (bind_pure_eq_error h)
  exact ⟨_, k, r, spells_append.mpr ⟨_, hopen, hp.spells⟩, .parensClose p hp.follows.head hne⟩

theorem refuses_array (he : Ended ls) (hlen : ls.length ≤ n)
    (h : primary expr ⟨⟨symbol .openBracket, offset'⟩ :: ls, d⟩ =
      (.error (.syntaxError offset cause), c)) :
    StuckAt .primary (Follows .primary) (⟨symbol .openBracket, offset'⟩ :: ls) offset := by
  rw [Phrase.primary_array he] at h
  have hlist := refuses_list (finds_item hexpr) (refuses_item hrefuses) (by rfl) he hlen
    (bind_pure_eq_error h)
  exact hlist.behind (spells_singleton _ _ _) fun _ _ _ _ => .array

theorem refuses_object (he : Ended ls) (hlen : ls.length ≤ n)
    (h : primary expr ⟨⟨symbol .openBrace, offset'⟩ :: ls, d⟩ =
      (.error (.syntaxError offset cause), c)) :
    StuckAt .primary (Follows .primary) (⟨symbol .openBrace, offset'⟩ :: ls) offset := by
  rw [Phrase.primary_object he] at h
  have hlist := refuses_list (finds_field hexpr) (refuses_field hrefuses) (by rfl) he hlen
    (bind_pure_eq_error h)
  exact hlist.behind (spells_singleton _ _ _) fun _ _ _ _ => .object

end

omit hexpr hrefuses in
theorem primary_eq_error {k : LexemeKind} (hk : k.opensPrimary = false) {offset offset' d : Nat}
    {cause : SyntaxCause} {ls : List Lexeme} {c : Cursor}
    (h : primary expr ⟨⟨k, offset'⟩ :: ls, d⟩ = (.error (.syntaxError offset cause), c)) :
    offset' = offset := by
  rw [primary, peek_bind] at h
  cases k with
  | symbol s => cases s <;> first
    | exact absurd hk (by decide)
    | cases h; rfl
  | eof => cases h; rfl
  | _ => simp [opensPrimary] at hk

theorem refuses_primary : Refuses .primary (Follows .primary) (n + 1) (primary expr) := by
  intro ls d offset cause c he hlen h
  obtain ⟨k, offset', ls', rfl, htail⟩ := he.exists_cons
  simp only [List.length_cons] at hlen
  cases hopens : k.opensPrimary with
  | false =>
    obtain rfl := primary_eq_error hopens h
    exact ⟨[], k, ls', rfl, .primary hopens⟩
  | true =>
    cases hatom : k.atom? with
    | some e =>
      have he' := htail (by rintro rfl; simp [atom?] at hatom)
      rw [Phrase.primary_of_atom hatom he'] at h
      cases h
    | none =>
      rcases opener_of_atom?_eq_none hatom hopens with rfl | rfl | rfl
      · exact refuses_parens hexpr hrefuses (htail (by simp)) (by omega) h
      · exact refuses_array hexpr hrefuses (htail (by simp)) (by omega) h
      · exact refuses_object hexpr hrefuses (htail (by simp)) (by omega) h

section

variable {m d offset offset' : Nat} {e : Expr} {cause : SyntaxCause} {ls : List Lexeme} {c : Cursor}

omit hexpr hrefuses in
theorem refuses_member (hlinks : ∀ e, Refuses .links (Follows .links) m (links D expr m e))
    (he : Ended ls) (hlen : ls.length ≤ m)
    (h : links D expr (m + 1) e ⟨⟨symbol .dot, offset'⟩ :: ls, d⟩ =
      (.error (.syntaxError offset cause), c)) :
    StuckAt .links (Follows .links) (⟨symbol .dot, offset'⟩ :: ls) offset := by
  rw [links, peek_bind] at h
  obtain ⟨_, h⟩ := (takesLevel_charged _ _).eq_syntaxError h
  rw [advance_bind _ _ he] at h
  rcases bind_eq_error h with h | ⟨s, _, hproperty, h⟩
  · obtain ⟨k, r, rfl, hk⟩ := property_eq_error he h
    exact ⟨_, k, r, spells_singleton _ _ _, .property hk⟩
  obtain ⟨offset'', r, rfl, he₁, rfl⟩ := property_eq_ok he hproperty
  simp only [List.length_cons] at hlen
  exact (hlinks _ he₁ (by omega) h).behind (spells_singleton _ offset' _).concat
    fun _ _ _ _ => .member s

theorem refuses_index (hm : m ≤ n)
    (hlinks : ∀ e, Refuses .links (Follows .links) m (links D expr m e)) (he : Ended ls)
    (hlen : ls.length ≤ m)
    (h : links D expr (m + 1) e ⟨⟨symbol .openBracket, offset'⟩ :: ls, d⟩ =
      (.error (.syntaxError offset cause), c)) :
    StuckAt .links (Follows .links) (⟨symbol .openBracket, offset'⟩ :: ls) offset := by
  have hopen := spells_singleton (symbol .openBracket) offset' ls
  rw [links, peek_bind] at h
  obtain ⟨_, h⟩ := (takesLevel_charged _ _).eq_syntaxError h
  rw [advance_bind _ _ he] at h
  rcases bind_eq_error h with h | ⟨_, _, hindex, h⟩
  · exact (hrefuses he (by omega) h).behind hopen fun _ _ _ _ => .indexKey
  obtain ⟨key, mid, hkey, rfl, rfl⟩ := hexpr he (by omega) hindex
  have hlen₁ := hkey.spells.length_eq
  rcases bind_eq_error h with h | ⟨_, _, hclose, h⟩
  · obtain ⟨k, r, rfl, hne⟩ := expect_eq_error hkey.ended h
    exact ⟨_, k, r, spells_append.mpr ⟨_, hopen, hkey.spells⟩, .indexClose key hkey.follows.head hne⟩
  obtain ⟨offset'', r, rfl, he₁, rfl⟩ := expect_eq_ok hkey.ended hclose
  simp only [List.length_cons] at hlen₁
  exact (hlinks _ he₁ (by omega) h).behind (spells_append.mpr ⟨_, hopen, hkey.spells.concat⟩)
    fun _ _ _ _ => .index key

theorem refuses_call (hm : m ≤ n)
    (hlinks : ∀ e, Refuses .links (Follows .links) m (links D expr m e)) (he : Ended ls)
    (hlen : ls.length ≤ m)
    (h : links D expr (m + 1) e ⟨⟨symbol .openParen, offset'⟩ :: ls, d⟩ =
      (.error (.syntaxError offset cause), c)) :
    StuckAt .links (Follows .links) (⟨symbol .openParen, offset'⟩ :: ls) offset := by
  have hopen := spells_singleton (symbol .openParen) offset' ls
  rw [links, peek_bind] at h
  obtain ⟨_, h⟩ := (takesLevel_charged _ _).eq_syntaxError h
  rw [advance_bind _ _ he] at h
  rcases bind_eq_error h with h | ⟨_, _, hargs, h⟩
  · have hlist := refuses_list (finds_item hexpr) (refuses_item hrefuses) (by rfl) he (by omega) h
    exact hlist.behind hopen fun _ _ _ _ => .callArgs
  obtain ⟨args, mid, hspells, hmid, rfl, rfl⟩ := finds_list (finds_item hexpr) he (by omega) hargs
  have hlen₁ := hspells.length_eq
  exact (hlinks _ hmid (by omega) h).behind (spells_append.mpr ⟨_, hopen, hspells⟩)
    fun _ _ _ _ => .call args

end

theorem refuses_links {m : Nat} (hm : m ≤ n + 1) (e : Expr) :
    Refuses .links (Follows .links) m (links D expr m e) := by
  induction m generalizing e with
  | zero =>
    intro ls d offset cause c he hlen h
    exact absurd he.length_pos (by omega)
  | succ m ih =>
    intro ls d offset cause c he hlen h
    have hlinks := fun e => ih (by omega) e
    obtain ⟨k, offset', ls', rfl, htail⟩ := he.exists_cons
    cases hlink : k.isLink with
    | false =>
      rw [Phrase.links_of_not_isLink (c := ⟨⟨k, offset'⟩ :: ls', d⟩) hlink] at h
      cases h
    | true =>
      simp only [List.length_cons] at hlen
      unfold isLink at hlink
      split at hlink
      · exact refuses_member hlinks (htail (by simp)) (by omega) h
      · exact refuses_index hexpr hrefuses (by omega) hlinks (htail (by simp)) (by omega) h
      · exact refuses_call hexpr hrefuses (by omega) hlinks (htail (by simp)) (by omega) h
      · simp at hlink

theorem refuses_linked : Refuses .linked (Follows .linked) (n + 1) (linked D expr) := by
  intro ls d offset cause c he hlen h
  rcases bind_eq_error h with h | ⟨_, _, hprimary, h⟩
  · exact (refuses_primary hexpr hrefuses he hlen h).imp fun _ _ _ _ => .linked
  obtain ⟨p, mid, hp, rfl, rfl⟩ := finds_primary hexpr he hlen hprimary
  have hlen₁ := hp.spells.length_eq
  exact (refuses_links hexpr hrefuses (by omega) _ hp.ended (Nat.le_refl _) h).behind hp.spells
    fun _ _ _ _ => .links p

end

theorem refuses_expression (D n : Nat) : Refuses .expr (Follows .expr) n (expression D n) := by
  induction n with
  | zero =>
    intro ls d offset cause c he hlen h
    exact absurd he.length_pos (by omega)
  | succ n ih =>
    have hexpr := finds_expression D n
    have hlinked := finds_linked (D := D) hexpr
    have hunary : Finds .unary (n + 1) (unaryLevel D (expression D n)) :=
      fun ls d a c he hlen h => finds_unaryFrom hlinked hlen he (Nat.le_refl _) h
    have hrefused : Refuses .unary (Follows .unary) (n + 1) (unaryLevel D (expression D n)) :=
      fun ls d offset cause c he hlen h =>
        refuses_unaryFrom hlinked (refuses_linked hexpr ih) hlen he (Nat.le_refl _) h
    intro ls d offset cause c he hlen h
    obtain ⟨_, hternary⟩ := (takesLevel_nested _ _).eq_syntaxError h
    exact refuses_ternary hexpr ih (finds_runs Level.all hunary)
      (refuses_runs Level.all_nodup hunary hrefused) he hlen hternary

end Expr
end TemplateBar.Template
