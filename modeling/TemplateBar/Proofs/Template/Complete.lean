import TemplateBar.Proofs.Template.Reading

/-!
# Phrases are read

Each phrase is read by the step of its category, as its tree, whenever there are as many levels of
nesting as it needs, and it fails for want of levels otherwise. The induction is on the phrase;
`n` bounds the nesting of whole expressions and `m` the rounds of a loop.
-/
namespace TemplateBar.Template

open Parse LexemeKind
open Category (follows_question follows_expr)

namespace Expr

theorem ofLogical_eq_node (op : LogicalOp) (first : Expr) (rest : List (LogicalOp × Expr)) :
    ofLogical op first (rest.map (·.2)) = (Level.logical op).node first rest := by
  cases rest <;> rfl

theorem ofChain_eq_node (c : ChainLevel) (first : Expr) (rest : List (InfixOp × Expr)) :
    ofChain first rest = (Level.chain c).node first rest := by
  cases rest <;> rfl

theorem runs_cons (l : Level) (ls : List Level) (u : Parse Expr) :
    runs (l :: ls) u = (do
      let first ← runs ls u
      let rest ← fueled (operandsAfter l.operator? (runs ls u))
      return l.node first rest) := by
  cases l with
  | logical op =>
    refine congrArg (runs ls u >>= ·) (funext fun first => ?_)
    exact congrArg (_ >>= ·) (funext fun rest => congrArg pure (ofLogical_eq_node op first rest))
  | chain c =>
    refine congrArg (runs ls u >>= ·) (funext fun first => ?_)
    exact congrArg (_ >>= ·) (funext fun rest => congrArg pure (ofChain_eq_node c first rest))

def entry (expr : Parse Expr) : (e : Entry) → Parse e.Tree
  | .item => expr
  | .field => field expr

end Expr

open TemplateBar.Template.Expr

namespace Phrase

variable {D : Nat}

/-- What the step of its category makes of a phrase. -/
def Readable (D : Nat) : {cat : Category} → Phrase cat → Prop
  | .expr, p => ∀ n, Reads D p.need n p.kinds .expr (expression D n) p.tree
  | .unary, p => ∀ n m, m ≤ n + 1 →
      Reads D p.need m p.kinds .unary (unaryFrom D (expression D n) m) p.tree
  | .power, p => ∀ n m, m ≤ n + 1 →
      Reads D p.need m p.kinds .power (unaryFrom D (expression D n) m) p.tree
  | .linked, p => ∀ n, Reads D p.need (n + 1) p.kinds .linked (Expr.linked D (expression D n)) p.tree
  | .links, p => ∀ n m e, m ≤ n + 1 →
      Reads D p.need m p.kinds .links (links D (expression D n) m e) (p.tree e)
  | .primary, p => ∀ n, Reads D p.need (n + 1) p.kinds .primary (primary (expression D n)) p.tree
  | .run ls, p => ls.Nodup → ∀ n,
      Reads D p.need (n + 1) p.kinds (.run ls) (runs ls (unaryLevel D (expression D n))) p.tree
  | .rest l ls, p => (l :: ls).Nodup → ∀ n m, m ≤ n + 1 →
      Reads D p.need m p.kinds (.rest l ls)
        (operandsAfter l.operator? (runs ls (unaryLevel D (expression D n))) m) p.tree
  | .entry e, p => ∀ n, Reads D p.need n p.kinds (.entry e) (entry (expression D n) e) p.tree
  | .entries e, p => ∀ n m s, m ≤ n → (symbol s).isCloser = true →
      Reads D p.need m (p.kinds ++ [symbol s]) .primary
        (itemsUntil (entry (expression D n) e) s m) p.tree
  | .list e, p => ∀ n s, (symbol s).isCloser = true →
      Reads D p.need n (p.kinds ++ [symbol s]) .primary
        (list (entry (expression D n) e) s) p.tree

theorem current_of_spells {k : LexemeKind} {ks : List LexemeKind} {ls rest : List Lexeme} {d : Nat}
    (h : Spells (k :: ks) ls rest) : (current ⟨ls, d⟩).kind = k := by
  obtain ⟨offset, ls, rfl, -⟩ := h
  rfl

theorem opensPrimary_current (b : Phrase .linked) (hb : Category.linked.solid = true)
    {ls rest : List Lexeme} {d : Nat} (hs : Spells b.kinds ls rest) :
    (current ⟨ls, d⟩).kind.opensPrimary = true := by
  obtain ⟨k, ks, hk, ho⟩ := b.exists_first hb
  rw [hk] at hs
  rw [current_of_spells hs]
  exact ho

theorem unaryFrom_of_opensPrimary {expr : Parse Expr} {m : Nat} {c : Cursor}
    (h : (current c).kind.opensPrimary = true) :
    unaryFrom D expr (m + 1) c = (do
      let base ← Expr.linked D expr
      if ← eat .caret then
        let exponent ← nested D (unaryFrom D expr m)
        return Expr.power base exponent
      else return base) c := by
  rw [unaryFrom, peek_bind, ofKind?_of_opensPrimary h]

theorem links_of_not_isLink {expr : Parse Expr} {m : Nat} {e : Expr} {c : Cursor}
    (h : (current c).kind.isLink = false) : Expr.links D expr m e c = (.ok e, c) := by
  cases m with
  | zero => rfl
  | succ m =>
    rw [Expr.links, peek_bind]
    generalize (current c).kind = k at h ⊢
    cases k with
    | symbol s => cases s <;> first
      | rfl
      | simp [isLink] at h
    | _ => rfl

theorem property_of_name {s : String} {offset : Nat} {ls : List Lexeme} (h : Ended ls) (d : Nat) :
    Expr.property ⟨⟨.name s, offset⟩ :: ls, d⟩ = (.ok s, ⟨ls, d⟩) := by
  unfold Expr.property
  rw [peek_bind]
  exact advance_bind _ _ h d

theorem key_of_key? {k : LexemeKind} {key : String} (hk : k.key? = some key) {offset : Nat}
    {ls : List Lexeme} (h : Ended ls) (d : Nat) :
    Expr.key ⟨⟨k, offset⟩ :: ls, d⟩ = (.ok key, ⟨ls, d⟩) := by
  unfold Expr.key
  rw [peek_bind]
  unfold key? at hk
  split at hk <;> first
    | cases hk; exact advance_bind _ _ h d
    | simp at hk

theorem readable_plain {c : Phrase (.run Level.all)} (ih : c.Readable D) : (plain c).Readable D := by
  intro n ls rest d hs he hf hlen hd
  cases n with
  -- The bound is never what ends the reading, as the lexemes ahead keep below it.
  | zero => exact absurd he.length_pos (by omega)
  | succ n =>
    refine (takesLevel_nested _ _).settles fun hd' => ?_
    have hc := ih Level.all_nodup n hs he (hf.imp fun k hk => hk.1) hlen hd'
    have hne : (current ⟨rest, d + 1⟩).kind ≠ .symbol .question := hf.current.2
    refine (hc.bind ?_).of_eq (Nat.max_zero _)
    rw [bind_of_ok (eat_of_ne hne)]
    exact settles_pure hd'

theorem readable_conditional {c : Phrase (.run Level.all)} {a b : Phrase .expr}
    (ihc : c.Readable D) (iha : a.Readable D) (ihb : b.Readable D) :
    (conditional c a b).Readable D := by
  intro n ls rest d hs he hf hlen hd
  cases n with
  | zero => exact absurd he.length_pos (by omega)
  | succ n =>
    refine (takesLevel_nested _ _).settles fun hd' => ?_
    obtain ⟨_, ⟨_, mid, rfl, hs₁⟩, he₁, hlen₁, hc⟩ :=
      (ihc Level.all_nodup n).front hs he (follows_question _) hlen hd'
    have hmid := he₁.tail (by simp)
    obtain ⟨_, ⟨_, mid', rfl, hs₂⟩, he₂, hlen₂, ha⟩ :=
      (iha n).front hs₁ hmid (follows_expr (by simp) _) (by simp at hlen₁; omega) hd'
    have hmid' := he₂.tail (by simp)
    have hb := ihb n hs₂ hmid' hf (by simp at hlen₁ hlen₂; omega) hd'
    refine hc.bind ?_
    rw [bind_of_ok (eat_of_eq hmid _)]
    refine ha.bind ?_
    rw [bind_of_ok (expect_of_eq hmid' _)]
    exact (hb.bind (settles_pure hd')).of_eq (Nat.max_zero _)

theorem readable_operand {u : Phrase .unary} (ih : u.Readable D) : (operand u).Readable D := by
  intro _ n ls rest d hs he hf hlen hd
  exact ih n ls.length hlen hs he (hf.imp fun k hk => hk.1) (Nat.le_refl _) hd

theorem readable_run {l : Level} {ls : List Level} {first : Phrase (.run ls)}
    {rest : Phrase (.rest l ls)} (ihf : first.Readable D) (ihr : rest.Readable D) :
    (run first rest).Readable D := by
  intro hnd n ls' rest' d hs he hf hlen hd
  have hl := List.nodup_cons.mp hnd
  obtain ⟨mid, hs₁, he₁, hlen₁, hfirst⟩ :=
    (ihf hl.2 n).front hs he (rest.rest_follows hl.1 hf) hlen hd
  have hrest := ihr hnd n mid.length (by omega) hs₁ he₁ hf (Nat.le_refl _) hd
  rw [runs_cons]
  exact hfirst.bind ((hrest.bind (settles_pure hd)).of_eq (Nat.max_zero _))

theorem readable_done {l : Level} {ls : List Level} : (@done l ls).Readable D := by
  intro hnd n m hm ls' rest d hs he hf hlen hd
  obtain rfl : ls' = rest := hs
  cases m with
  | zero => exact absurd he.length_pos (by omega)
  | succ m =>
    have hnone : l.operator? (current ⟨ls', d⟩).kind = none := hf.current.operator?_eq_none
    rw [operandsAfter, peek_bind, hnone]
    exact settles_pure hd

theorem readable_more {l : Level} {ls : List Level} {s : Symbol} {op : l.Op}
    {h : (s, op) ∈ l.operators} {next : Phrase (.run ls)} {rest : Phrase (.rest l ls)}
    (ihn : next.Readable D) (ihr : rest.Readable D) : (more s op h next rest).Readable D := by
  intro hnd n m hm ls' rest' d hs he hf hlen hd
  have hl := List.nodup_cons.mp hnd
  obtain ⟨offset, ls', rfl, hs⟩ := hs
  have he' := he.tail (by simp)
  cases m with
  | zero => simp at hlen
  | succ m =>
    have hlen' : ls'.length ≤ m := by simpa using hlen
    obtain ⟨mid, hs₁, he₁, hlen₁, hnext⟩ :=
      (ihn hl.2 n).front hs he' (rest.rest_follows hl.1 hf) (by omega) hd
    have hrest := ihr hnd n m (by omega) hs₁ he₁ hf (by omega) hd
    have hop : l.operator? (current ⟨⟨.symbol s, offset⟩ :: ls', d⟩).kind = some op :=
      Level.operator?_of_mem h
    rw [operandsAfter, peek_bind, hop]
    simp only
    rw [advance_bind _ _ he']
    exact hnext.bind ((hrest.bind (settles_pure hd)).of_eq (Nat.max_zero _))

theorem readable_front {s : Symbol} {op : UnaryOp} {h : (s, op) ∈ UnaryOp.symbols}
    {u : Phrase .unary} (ih : u.Readable D) : (front s op h u).Readable D := by
  intro n m hm ls rest d hs he hf hlen hd
  obtain ⟨offset, ls, rfl, hs⟩ := hs
  have he' := he.tail (by simp)
  cases m with
  | zero => simp at hlen
  | succ m =>
    have hop : UnaryOp.ofKind? (current ⟨⟨.symbol s, offset⟩ :: ls, d⟩).kind = some op :=
      UnaryOp.ofKind?_of_mem h
    rw [unaryFrom, peek_bind, hop]
    simp only
    rw [advance_bind _ _ he']
    have hu : Settles D d (u.need + 1) u.tree rest _ := (takesLevel_nested _ _).settles fun hd' =>
      ih n m (by omega) hs he' hf (by simpa using hlen) hd'
    exact (hu.bind (settles_pure hd)).of_eq (Nat.max_zero _)

theorem readable_tight {p : Phrase .power} (ih : p.Readable D) : (tight p).Readable D := ih

theorem readable_base {b : Phrase .linked} (ih : b.Readable D) : (base b).Readable D := by
  intro n m hm ls rest d hs he hf hlen hd
  cases m with
  | zero => exact absurd he.length_pos (by omega)
  | succ m =>
    have hb := ih n hs he (hf.imp fun k hk => hk.1) (by omega) hd
    have hne : (current ⟨rest, d⟩).kind ≠ .symbol .caret := hf.current.2
    rw [unaryFrom_of_opensPrimary (b.opensPrimary_current rfl hs)]
    refine (hb.bind ?_).of_eq (Nat.max_zero _)
    rw [bind_of_ok (eat_of_ne hne)]
    exact settles_pure hd

theorem readable_raised {b : Phrase .linked} {x : Phrase .unary} (ihb : b.Readable D)
    (ihx : x.Readable D) : (raised b x).Readable D := by
  intro n m hm ls rest d hs he hf hlen hd
  obtain ⟨_, hs₀, -⟩ := spells_append.mp hs
  obtain ⟨_, ⟨_, mid, rfl, hs₁⟩, he₁, hlen₁, hb⟩ :=
    (ihb n).front hs he ⟨_, _, rfl, isLink_caret⟩ (by omega) hd
  have hmid := he₁.tail (by simp)
  cases m with
  | zero => exact absurd he.length_pos (by omega)
  | succ m =>
    have hx : Settles D d (x.need + 1) x.tree rest _ := (takesLevel_nested _ _).settles fun hd' =>
      ihx n m (by omega) hs₁ hmid hf (by simp at hlen₁; omega) hd'
    rw [unaryFrom_of_opensPrimary (b.opensPrimary_current rfl hs₀)]
    refine hb.bind ?_
    rw [bind_of_ok (eat_of_eq hmid _)]
    exact (hx.bind (settles_pure hd)).of_eq (Nat.max_zero _)

theorem readable_linked {p : Phrase .primary} {links : Phrase .links} (ihp : p.Readable D)
    (ihl : links.Readable D) : (linked p links).Readable D := by
  intro n ls rest d hs he hf hlen hd
  obtain ⟨mid, hs₁, he₁, hlen₁, hp⟩ := (ihp n).front hs he (links.links_follows hf) hlen hd
  exact hp.bind (ihl n mid.length p.tree (by omega) hs₁ he₁ hf (Nat.le_refl _) hd)

theorem readable_unlinked : unlinked.Readable D := by
  intro n m e hm ls rest d hs he hf hlen hd
  obtain rfl : ls = rest := hs
  rw [links_of_not_isLink hf.current]
  exact settles_pure hd

theorem readable_member {property : String} {links : Phrase .links} (ih : links.Readable D) :
    (member property links).Readable D := by
  intro n m e hm ls rest d hs he hf hlen hd
  obtain ⟨_, _, rfl, _, ls, rfl, hs⟩ := hs
  have he₁ := he.tail (by simp)
  have he₂ := he₁.tail (by simp)
  cases m with
  | zero => simp at hlen
  | succ m =>
    rw [Expr.links, peek_bind]
    refine (takesLevel_charged _ _).settles fun hd' => ?_
    have hlinks := ih n m (e.member property) (by omega) hs he₂ hf (by simp at hlen; omega) hd'
    rw [advance_bind _ _ he₁, bind_of_ok (property_of_name he₂ _)]
    exact hlinks

theorem readable_index {key : Phrase .expr} {links : Phrase .links} (ihk : key.Readable D)
    (ihl : links.Readable D) : (index key links).Readable D := by
  intro n m e hm ls rest d hs he hf hlen hd
  obtain ⟨_, ls, rfl, hs⟩ := hs
  have he' := he.tail (by simp)
  cases m with
  | zero => simp at hlen
  | succ m =>
    have hlen' : ls.length ≤ m := by simpa using hlen
    rw [Expr.links, peek_bind]
    refine (takesLevel_charged _ _).settles fun hd' => ?_
    obtain ⟨_, ⟨_, mid, rfl, hs₁⟩, he₁, hlen₁, hkey⟩ :=
      (ihk n).front hs he' (follows_expr (by simp) _) (by omega) hd'
    have hmid := he₁.tail (by simp)
    have hlinks := ihl n m (e.index key.tree) (by omega) hs₁ hmid hf
      (by simp at hlen₁; omega) hd'
    rw [advance_bind _ _ he']
    refine hkey.bind ?_
    rw [bind_of_ok (expect_of_eq hmid _)]
    exact hlinks

theorem readable_call {args : Phrase (.list .item)} {links : Phrase .links} (iha : args.Readable D)
    (ihl : links.Readable D) : (call args links).Readable D := by
  intro n m e hm ls rest d hs he hf hlen hd
  obtain ⟨_, ls, rfl, hs⟩ := hs
  have he' := he.tail (by simp)
  cases m with
  | zero => simp at hlen
  | succ m =>
    have hlen' : ls.length ≤ m := by simpa using hlen
    rw [Expr.links, peek_bind]
    refine (takesLevel_charged _ _).settles fun hd' => ?_
    rw [← List.singleton_append, ← List.append_assoc] at hs
    obtain ⟨mid, hs₁, he₁, hlen₁, hargs⟩ :=
      (iha n .closeParen rfl).front hs he' (links.links_follows hf) (by omega) hd'
    have hlinks := ihl n m (e.call args.tree) (by omega) hs₁ he₁ hf (by omega) hd'
    rw [advance_bind _ _ he']
    exact hargs.bind hlinks

theorem primary_of_atom {k : LexemeKind} {e : Expr} (hk : k.atom? = some e) {expr : Parse Expr}
    {offset : Nat} {ls : List Lexeme} (h : Ended ls) (d : Nat) :
    primary expr ⟨⟨k, offset⟩ :: ls, d⟩ = (.ok e, ⟨ls, d⟩) := by
  rw [primary, peek_bind]
  unfold atom? at hk
  split at hk <;> first
    | cases hk; exact advance_bind _ _ h d
    | simp at hk

theorem readable_atom {k : LexemeKind} {e : Expr} {hk : k.atom? = some e} :
    (atom k e hk).Readable D := by
  intro n ls rest d hs he hf hlen hd
  obtain ⟨offset, ls, rfl, hs⟩ := hs
  obtain rfl : ls = rest := hs
  have hspell : Spells [k] (⟨k, offset⟩ :: ls) ls := ⟨offset, ls, rfl, rfl⟩
  show Settles D d 0 e ls _
  rw [primary_of_atom hk (he.of_spells hspell hf.ne_nil)]
  exact settles_pure hd

theorem primary_parens {expr : Parse Expr} {offset : Nat} {ls : List Lexeme} (h : Ended ls) (d : Nat) :
    primary expr ⟨⟨symbol .openParen, offset⟩ :: ls, d⟩ = (do
      let e ← expr
      expect .closeParen
      return e) ⟨ls, d⟩ := by
  rw [primary, peek_bind]
  exact advance_bind _ _ h d

theorem primary_array {expr : Parse Expr} {offset : Nat} {ls : List Lexeme} (h : Ended ls) (d : Nat) :
    primary expr ⟨⟨symbol .openBracket, offset⟩ :: ls, d⟩ =
      (do return Expr.array (← Expr.list expr .closeBracket)) ⟨ls, d⟩ := by
  rw [primary, peek_bind]
  exact advance_bind _ _ h d

theorem primary_object {expr : Parse Expr} {offset : Nat} {ls : List Lexeme} (h : Ended ls)
    (d : Nat) :
    primary expr ⟨⟨symbol .openBrace, offset⟩ :: ls, d⟩ =
      (do return Expr.object (← Expr.list (Expr.field expr) .closeBrace)) ⟨ls, d⟩ := by
  rw [primary, peek_bind]
  exact advance_bind _ _ h d

theorem readable_parens {e : Phrase .expr} (ih : e.Readable D) : (parens e).Readable D := by
  intro n ls rest d hs he hf hlen hd
  obtain ⟨offset, ls, rfl, hs⟩ := hs
  have he' := he.tail (by simp)
  obtain ⟨_, ⟨_, mid, rfl, rfl⟩, he₁, hlen₁, hexpr⟩ :=
    (ih n).front hs he' (follows_expr (by simp) _) (by simpa using hlen) hd
  rw [primary_parens he']
  refine Settles.of_eq (hexpr.bind ?_) (Nat.max_zero _)
  rw [bind_of_ok (expect_of_eq (he₁.tail (by simp)) _)]
  exact settles_pure hd

theorem readable_array {items : Phrase (.list .item)} (ih : items.Readable D) :
    (array items).Readable D := by
  intro n ls rest d hs he hf hlen hd
  obtain ⟨offset, ls, rfl, hs⟩ := hs
  have he' := he.tail (by simp)
  have hitems := ih n .closeBracket rfl hs he' hf (by simpa using hlen) hd
  rw [primary_array he']
  exact (hitems.bind (settles_pure hd)).of_eq (Nat.max_zero _)

theorem readable_object {fields : Phrase (.list .field)} (ih : fields.Readable D) :
    (object fields).Readable D := by
  intro n ls rest d hs he hf hlen hd
  obtain ⟨offset, ls, rfl, hs⟩ := hs
  have he' := he.tail (by simp)
  have hfields := ih n .closeBrace rfl hs he' hf (by simpa using hlen) hd
  rw [primary_object he']
  exact (hfields.bind (settles_pure hd)).of_eq (Nat.max_zero _)

theorem readable_empty {e : Entry} : (@empty e).Readable D := by
  intro n s hs ls rest d hspell he hf hlen hd
  obtain ⟨offset, ls, rfl, hrest⟩ := hspell
  obtain rfl : ls = rest := hrest
  show Settles D d 0 _ ls _
  unfold Expr.list
  rw [bind_of_ok (eat_of_eq (he.tail (by simp)) _)]
  exact settles_pure hd

theorem readable_filled {e : Entry} {entries : Phrase (.entries e)} (ih : entries.Readable D) :
    (filled entries).Readable D := by
  intro n s hs ls rest d hspell he hf hlen hd
  obtain ⟨k, ks, hk, ho⟩ := entries.exists_first rfl
  have hne : (current ⟨ls, d⟩).kind ≠ .symbol s := by
    obtain ⟨mid, hmid, -⟩ := spells_append.mp hspell
    rw [show (filled entries).kinds = k :: ks from hk] at hmid
    rw [current_of_spells hmid]
    rintro rfl
    rw [not_isCloser_of_opensOperand ho] at hs
    simp at hs
  unfold Expr.list
  rw [bind_of_ok (eat_of_ne hne)]
  exact ih n ls.length s hlen hs hspell he hf (Nat.le_refl _) hd

theorem readable_last {e : Entry} {x : Phrase (.entry e)} (ih : x.Readable D) :
    (last x).Readable D := by
  intro n m s hm hs ls rest d hspell he hf hlen hd
  cases m with
  | zero => exact absurd he.length_pos (by omega)
  | succ m =>
    obtain ⟨_, ⟨_, mid, rfl, rfl⟩, he₁, hlen₁, hx⟩ :=
      (ih n).front hspell he ⟨_, _, rfl, endsExpr_of_isCloser hs⟩ (by omega) hd
    refine (hx.bind ?_).of_eq (Nat.max_zero _)
    rw [bind_of_ok (eat_of_eq (he₁.tail (by simp)) _)]
    exact settles_pure hd

theorem readable_cons {e : Entry} {x : Phrase (.entry e)} {xs : Phrase (.entries e)}
    (ihx : x.Readable D) (ihxs : xs.Readable D) : (cons x xs).Readable D := by
  intro n m s hm hs ls rest d hspell he hf hlen hd
  cases m with
  | zero => exact absurd he.length_pos (by omega)
  | succ m =>
    rw [Phrase.kinds_cons_append] at hspell
    obtain ⟨_, ⟨offset, mid, rfl, hspell₁⟩, he₁, hlen₁, hx⟩ :=
      (ihx n).front hspell he (follows_expr (by simp) _) (by omega) hd
    have hmid := he₁.tail (by simp)
    have hxs := ihxs n m s (by omega) hs hspell₁ hmid hf (by simp at hlen₁; omega) hd
    have hne : (current ⟨⟨symbol .comma, offset⟩ :: mid, d⟩).kind ≠ .symbol s := by
      intro h
      rw [← h] at hs
      simp [current, isCloser] at hs
    refine hx.bind ?_
    rw [bind_of_ok (eat_of_ne hne)]
    simp only [Bool.false_eq_true, if_false]
    rw [bind_of_ok (expect_of_eq hmid _)]
    exact (hxs.bind (settles_pure hd)).of_eq (Nat.max_zero _)

theorem readable_item {e : Phrase .expr} (ih : e.Readable D) : (item e).Readable D := ih

theorem readable_field {k : LexemeKind} {key : String} {hk : k.key? = some key} {e : Phrase .expr}
    (ih : e.Readable D) : (field k key hk e).Readable D := by
  intro n ls rest d hs he hf hlen hd
  obtain ⟨offset, _, rfl, offset', ls, rfl, hs⟩ := hs
  have hk' : k ≠ .eof := by
    rintro rfl
    simp [key?] at hk
  have he₁ := he.tail hk'
  have he₂ := he₁.tail (by simp)
  have he' := ih n hs he₂ hf (by simp at hlen; omega) hd
  show Settles D d e.need _ rest (Expr.field _ _)
  unfold Expr.field
  rw [bind_of_ok (key_of_key? hk he₁ _), bind_of_ok (expect_of_eq he₂ _)]
  exact (he'.bind (settles_pure hd)).of_eq (Nat.max_zero _)

theorem readable {cat : Category} (p : Phrase cat) : p.Readable D := by
  induction p with
  | plain c ih => exact readable_plain ih
  | conditional c a b ihc iha ihb => exact readable_conditional ihc iha ihb
  | operand u ih => exact readable_operand ih
  | run first rest ihf ihr => exact readable_run ihf ihr
  | done => exact readable_done
  | more s op h next rest ihn ihr => exact readable_more ihn ihr
  | front s op h u ih => exact readable_front ih
  | tight p ih => exact readable_tight ih
  | base b ih => exact readable_base ih
  | raised b x ihb ihx => exact readable_raised ihb ihx
  | linked p links ihp ihl => exact readable_linked ihp ihl
  | unlinked => exact readable_unlinked
  | member property links ih => exact readable_member ih
  | index key links ihk ihl => exact readable_index ihk ihl
  | call args links iha ihl => exact readable_call iha ihl
  | atom k e hk => exact readable_atom
  | parens e ih => exact readable_parens ih
  | array items ih => exact readable_array ih
  | object fields ih => exact readable_object ih
  | empty => exact readable_empty
  | filled entries ih => exact readable_filled ih
  | last x ih => exact readable_last ih
  | cons x xs ihx ihxs => exact readable_cons ihx ihxs
  | item e ih => exact readable_item ih
  | field k key hk e ih => exact readable_field ih

end Phrase

end TemplateBar.Template
