import TemplateBar.Proofs.Template.Parse
import TemplateBar.Proofs.Template.Spelling

/-!
# Where no phrase goes on

Kinds of lexemes that begin a phrase may be stuck at a further kind: they can be completed to a
phrase of the category, but no phrase of it, with something behind it that may follow there, begins
with them and that kind. Being stuck passes from a part of a phrase to the phrase, behind the parts
that are in front of it. As a part ends where nothing goes on with it, those parts are the same in
every phrase that begins so.
-/
namespace TemplateBar.Template

open LexemeKind
open Category (Follows follows_cons follows_question follows_expr follows_closer)

/-- Kinds of lexemes that have a spelling. -/
def Spellable (ks : List LexemeKind) : Prop := ∀ k ∈ ks, ∃ text, k.IsSpelling text

@[simp] theorem spellable_nil : Spellable [] := by simp [Spellable]

@[simp] theorem spellable_append {ks ks' : List LexemeKind} :
    Spellable (ks ++ ks') ↔ Spellable ks ∧ Spellable ks' :=
  List.forall_mem_append

@[simp] theorem spellable_symbol_cons {s : Symbol} {ks : List LexemeKind} :
    Spellable (symbol s :: ks) ↔ Spellable ks := by
  simp only [Spellable, List.forall_mem_cons, and_iff_right_iff_imp]
  exact fun _ => ⟨s.spelling, .symbol s⟩

@[simp] theorem spellable_x_cons {ks : List LexemeKind} :
    Spellable (name "x" :: ks) ↔ Spellable ks := by
  simp only [Spellable, List.forall_mem_cons, and_iff_right_iff_imp]
  have hx : IsIdentifier "x".toList := ⟨⟨'x', [], rfl, rfl⟩, List.forall_mem_singleton.mpr rfl⟩
  exact fun _ => ⟨_, IsSpelling.name hx rfl⟩

namespace Phrase

/-- The shortest expression, to complete phrases with. -/
def x : Phrase .expr := alone (.tight (.base (ofName "x")))

@[simp] theorem kinds_x : x.kinds = [.name "x"] := rfl

end Phrase

/-- The kinds begin a phrase of the category, but none of these that has a text behind it that may
follow goes on with the kind `k`. -/
structure Stuck (cat : Category) (follows : List LexemeKind → Prop) (ks : List LexemeKind)
    (k : LexemeKind) : Prop where
  completable : ∃ (p : Phrase cat) (more : List LexemeKind), p.kinds = ks ++ more ∧ Spellable more
  dead : ∀ (q : Phrase cat) (r later : List LexemeKind), follows r → q.kinds ++ r ≠ ks ++ k :: later

/-- What may follow the items in front of a closing symbol. -/
def ClosedBy (s : Symbol) (r : List LexemeKind) : Prop := ∃ r', r = symbol s :: r'

namespace Stuck

variable {ks : List LexemeKind} {k : LexemeKind}

/-- A part of a phrase that is stuck behind `front` is where the phrase is stuck, as long as every
phrase that begins so has a part of that category there. -/
theorem within {cat cat' : Category} {follows follows' : List LexemeKind → Prop}
    (h : Stuck cat follows ks k) (front : List LexemeKind) (whole : Phrase cat → Phrase cat')
    (back : List LexemeKind) (hwhole : ∀ p, (whole p).kinds = front ++ (p.kinds ++ back))
    (hback : Spellable back)
    (hpart : ∀ (q : Phrase cat') (r later : List LexemeKind), follows' r →
      q.kinds ++ r = front ++ (ks ++ k :: later) →
        ∃ (p : Phrase cat) (r' : List LexemeKind), follows r' ∧ p.kinds ++ r' = ks ++ k :: later) :
    Stuck cat' follows' (front ++ ks) k where
  completable := by
    obtain ⟨p, more, hp, hmore⟩ := h.completable
    exact ⟨whole p, more ++ back, by rw [hwhole, hp]; simp, by simp [hmore, hback]⟩
  dead := by
    intro q r later hr heq
    rw [List.append_assoc] at heq
    obtain ⟨p, r', hr', hp⟩ := hpart q r later hr heq
    exact h.dead p r' later hr' hp

/-- Where every phrase that begins with `front` has an expression and then a symbol, it is stuck
behind that expression at any other kind that ends it. -/
theorem expects {cat : Category} {follows : List LexemeKind → Prop} (e : Phrase .expr) {s : Symbol}
    (hs : s ∈ [Symbol.colon, .comma, .closeParen, .closeBracket, .closeBrace]) (hk : k.EndsExpr)
    (hne : k ≠ symbol s) (front : List LexemeKind) (whole : Phrase cat) (back : List LexemeKind)
    (hwhole : whole.kinds = front ++ (e.kinds ++ symbol s :: back)) (hback : Spellable back)
    (hpart : ∀ (q : Phrase cat) (r t : List LexemeKind), follows r → q.kinds ++ r = front ++ t →
      ∃ (e' : Phrase .expr) (r' : List LexemeKind), e'.kinds ++ symbol s :: r' = t) :
    Stuck cat follows (front ++ e.kinds) k where
  completable := ⟨whole, symbol s :: back, by rw [hwhole, List.append_assoc], by simp [hback]⟩
  dead := by
    intro q r later hr heq
    rw [List.append_assoc] at heq
    obtain ⟨e', r', ht⟩ := hpart q r _ hr heq
    have hbehind := (e'.unique e trivial (follows_expr hs _) (follows_cons .expr hk _) ht).2
    exact hne (List.cons.inj hbehind).1.symm

/-- What a text begins with does not depend on what it goes on with. -/
theorem follows_congr {cat : Category} {r : List LexemeKind} (h : cat.Follows (ks ++ k :: r))
    (r' : List LexemeKind) : cat.Follows (ks ++ k :: r') := by
  cases ks <;> exact follows_cons cat h.head _

/-! ### Whole expressions -/

theorem condition (h : Stuck (.run Level.all) (Follows (.run Level.all)) ks k) :
    Stuck .expr (Follows .expr) ks k := by
  refine h.within [] .plain [] (by simp [Phrase.kinds]) (by simp) ?_
  intro q r later hr heq
  cases q with
  | plain c => exact ⟨c, r, hr.imp fun k hk => hk.1, heq⟩
  | conditional c a b =>
    rw [Phrase.kinds_conditional_append] at heq
    exact ⟨c, _, follows_question _, heq⟩

/-- What stands behind a condition and its question mark goes on as the rest of a conditional. -/
theorem behind_question {c : Phrase (.run Level.all)} {t r : List LexemeKind} {q : Phrase .expr}
    (hr : Follows .expr r) (heq : q.kinds ++ r = c.kinds ++ [symbol .question] ++ t) :
    ∃ a b : Phrase .expr, a.kinds ++ symbol .colon :: (b.kinds ++ r) = t := by
  rw [List.append_assoc] at heq
  cases q with
  | plain c' =>
    obtain ⟨-, rfl⟩ :=
      c'.unique c Level.all_nodup (hr.imp fun k hk => hk.1) (follows_question _) heq
    exact absurd rfl hr.head.2
  | conditional c' a b =>
    rw [Phrase.kinds_conditional_append] at heq
    have hbehind := (c'.unique c Level.all_nodup (follows_question _) (follows_question _) heq).2
    exact ⟨a, b, (List.cons.inj hbehind).2⟩

theorem thenCase (c : Phrase (.run Level.all)) (h : Stuck .expr (Follows .expr) ks k) :
    Stuck .expr (Follows .expr) (c.kinds ++ [symbol .question] ++ ks) k := by
  refine h.within _ (.conditional c · .x) (symbol .colon :: Phrase.x.kinds)
    (by simp [Phrase.kinds]) (by simp) ?_
  intro q r later hr heq
  obtain ⟨a, b, ht⟩ := behind_question hr heq
  exact ⟨a, _, follows_expr (by simp) _, ht⟩

theorem colon (c : Phrase (.run Level.all)) (a : Phrase .expr) (hk : k.EndsExpr)
    (hne : k ≠ symbol .colon) :
    Stuck .expr (Follows .expr) (c.kinds ++ [symbol .question] ++ a.kinds) k := by
  refine expects a (by simp) hk hne _ (.conditional c a .x) Phrase.x.kinds (by simp [Phrase.kinds])
    (by simp) ?_
  intro q r t hr heq
  obtain ⟨a', b, ht⟩ := behind_question hr heq
  exact ⟨a', _, ht⟩

theorem elseCase (c : Phrase (.run Level.all)) (a : Phrase .expr)
    (h : Stuck .expr (Follows .expr) ks k) :
    Stuck .expr (Follows .expr)
      (c.kinds ++ [symbol .question] ++ (a.kinds ++ [symbol .colon]) ++ ks) k := by
  refine h.within _ (.conditional c a) [] (by simp [Phrase.kinds]) (by simp) ?_
  intro q r later hr heq
  rw [List.append_assoc] at heq
  obtain ⟨a', b, ht⟩ := behind_question hr heq
  rw [List.append_assoc] at ht
  have hbehind := (a'.unique a trivial (follows_expr (by simp) _) (follows_expr (by simp) _) ht).2
  exact ⟨b, r, hr, (List.cons.inj hbehind).2⟩

/-! ### Operands -/

theorem base (h : Stuck .linked (Follows .linked) ks k) : Stuck .power (Follows .power) ks k := by
  refine h.within [] .base [] (by simp [Phrase.kinds]) (by simp) ?_
  intro q r later hr heq
  cases q with
  | base b => exact ⟨b, r, hr.imp fun k hk => hk.1, heq⟩
  | raised b x =>
    rw [Phrase.kinds_raised_append] at heq
    exact ⟨b, _, follows_cons .linked isLink_caret _, heq⟩

theorem exponent (b : Phrase .linked) (h : Stuck .unary (Follows .unary) ks k) :
    Stuck .power (Follows .power) (b.kinds ++ [symbol .caret] ++ ks) k := by
  refine h.within _ (.raised b) [] (by simp [Phrase.kinds]) (by simp) ?_
  intro q r later hr heq
  rw [List.append_assoc] at heq
  have hcaret : ∀ t, Follows .linked (symbol .caret :: t) := follows_cons .linked isLink_caret
  cases q with
  | base b' =>
    obtain ⟨-, rfl⟩ := b'.unique b trivial (hr.imp fun k hk => hk.1) (hcaret _) heq
    exact absurd rfl hr.head.2
  | raised b' x =>
    rw [Phrase.kinds_raised_append] at heq
    have hbehind := (b'.unique b trivial (hcaret _) (hcaret _) heq).2
    exact ⟨x, r, hr, (List.cons.inj hbehind).2⟩

theorem front {s : Symbol} {op : UnaryOp} (hs : (s, op) ∈ UnaryOp.symbols)
    (h : Stuck .unary (Follows .unary) ks k) :
    Stuck .unary (Follows .unary) ([symbol s] ++ ks) k := by
  refine h.within _ (.front s op hs) [] (by simp [Phrase.kinds]) (by simp) ?_
  intro q r later hr heq
  cases q with
  | front s' op' hs' u => exact ⟨u, r, hr, (List.cons.inj heq).2⟩
  | tight p => exact absurd heq.symm (Phrase.front_ne_tight hs p)

/-- An operand that begins with no operator in front is a power. -/
theorem tight (hfront : ∀ s op, (s, op) ∈ UnaryOp.symbols → (ks ++ [k]).head? ≠ some (symbol s))
    (h : Stuck .power (Follows .power) ks k) : Stuck .unary (Follows .unary) ks k := by
  refine h.within [] .tight [] (by simp [Phrase.kinds]) (by simp) ?_
  intro q r later hr heq
  cases q with
  | front s op hs u =>
    refine absurd ?_ (hfront s op hs)
    cases ks <;> exact congrArg some (List.cons.inj heq).1.symm
  | tight p => exact ⟨p, r, hr, heq⟩

theorem operand (h : Stuck .unary (Follows .unary) ks k) :
    Stuck (.run []) (Follows (.run [])) ks k := by
  refine h.within [] .operand [] (by simp [Phrase.kinds]) (by simp) ?_
  intro q r later hr heq
  cases q with
  | operand u => exact ⟨u, r, hr.imp fun k hk => hk.1, heq⟩

section

variable {l : Level} {ls : List Level}

theorem first (hl : l ∉ ls) (h : Stuck (.run ls) (Follows (.run ls)) ks k) :
    Stuck (.run (l :: ls)) (Follows (.run (l :: ls))) ks k := by
  refine h.within [] (.run · .done) [] (by simp [Phrase.kinds]) (by simp) ?_
  intro q r later hr heq
  cases q with
  | run first rest =>
    rw [Phrase.kinds_run_append] at heq
    exact ⟨first, _, rest.rest_follows hl hr, heq⟩

theorem rest (first : Phrase (.run ls)) (hnd : (l :: ls).Nodup)
    (hf : Follows (.run ls) (ks ++ [k])) (h : Stuck (.rest l ls) (Follows (.rest l ls)) ks k) :
    Stuck (.run (l :: ls)) (Follows (.run (l :: ls))) (first.kinds ++ ks) k := by
  refine h.within _ (.run first) [] (by simp [Phrase.kinds]) (by simp) ?_
  intro q r later hr heq
  have hl := List.nodup_cons.mp hnd
  cases q with
  | run first' rest' =>
    -- What begins the rest ends both first operands, so these are the same one.
    rw [Phrase.kinds_run_append] at heq
    exact ⟨rest', r, hr, (first'.unique first hl.2 (rest'.rest_follows hl.1 hr)
      (follows_congr hf later) heq).2⟩

/-- What stands behind an operator goes on with an operand and more operators. -/
theorem behind_operator {s : Symbol} {op : l.Op} (hs : (s, op) ∈ l.operators)
    {t r : List LexemeKind} {q : Phrase (.rest l ls)} (hr : Follows (.rest l ls) r)
    (heq : q.kinds ++ r = symbol s :: t) : ∃ (next : Phrase (.run ls)) (rest : Phrase (.rest l ls)),
      next.kinds ++ (rest.kinds ++ r) = t := by
  cases q with
  | done =>
    obtain rfl := heq
    have hnone := EndsRun.operator?_eq_none hr.head
    rw [Level.operator?_of_mem hs] at hnone
    simp at hnone
  | more s' op' hs' next rest =>
    rw [Phrase.kinds_more_append] at heq
    exact ⟨next, rest, (List.cons.inj heq).2⟩

theorem next {s : Symbol} {op : l.Op} (hs : (s, op) ∈ l.operators) (hl : l ∉ ls)
    (h : Stuck (.run ls) (Follows (.run ls)) ks k) :
    Stuck (.rest l ls) (Follows (.rest l ls)) ([symbol s] ++ ks) k := by
  refine h.within _ (.more s op hs · .done) [] (by simp [Phrase.kinds]) (by simp) ?_
  intro q r later hr heq
  obtain ⟨p, rest, ht⟩ := behind_operator hs hr heq
  exact ⟨p, _, rest.rest_follows hl hr, ht⟩

theorem behind_next {s : Symbol} {op : l.Op} (hs : (s, op) ∈ l.operators) (p : Phrase (.run ls))
    (hnd : (l :: ls).Nodup) (hf : Follows (.run ls) (ks ++ [k]))
    (h : Stuck (.rest l ls) (Follows (.rest l ls)) ks k) :
    Stuck (.rest l ls) (Follows (.rest l ls)) (symbol s :: p.kinds ++ ks) k := by
  refine h.within _ (.more s op hs p) [] (by simp [Phrase.kinds]) (by simp) ?_
  intro q r later hr heq
  have hl := List.nodup_cons.mp hnd
  obtain ⟨p', rest, ht⟩ := behind_operator hs hr heq
  exact ⟨rest, r, hr,
    (p'.unique p hl.2 (rest.rest_follows hl.1 hr) (follows_congr hf later) ht).2⟩

end

/-! ### Links -/

theorem linked (h : Stuck .primary (Follows .primary) ks k) :
    Stuck .linked (Follows .linked) ks k := by
  refine h.within [] (.linked · .unlinked) [] (by simp [Phrase.kinds]) (by simp) ?_
  intro q r later hr heq
  cases q with
  | linked p links =>
    rw [Phrase.kinds_linked_append] at heq
    exact ⟨p, _, links.links_follows hr, heq⟩

theorem links (p : Phrase .primary) (h : Stuck .links (Follows .links) ks k) :
    Stuck .linked (Follows .linked) (p.kinds ++ ks) k := by
  refine h.within _ (.linked p) [] (by simp [Phrase.kinds]) (by simp) ?_
  intro q r later hr heq
  have hf : Follows .primary (ks ++ k :: later) := by
    cases ks <;> exact follows_cons .primary trivial _
  cases q with
  | linked p' links =>
    rw [Phrase.kinds_linked_append] at heq
    exact ⟨links, r, hr, (p'.unique p trivial (links.links_follows hr) hf heq).2⟩

section

variable {q : Phrase .links} {r t : List LexemeKind}

theorem behind_dot (hr : Follows .links r) (heq : q.kinds ++ r = symbol .dot :: t) :
    ∃ (property : String) (links : Phrase .links), name property :: (links.kinds ++ r) = t := by
  cases q with
  | unlinked =>
    obtain rfl := heq
    cases show true = false from hr.head
  | member property links => exact ⟨property, links, (List.cons.inj heq).2⟩
  | index | call => cases (List.cons.inj heq).1

theorem behind_openBracket (hr : Follows .links r) (heq : q.kinds ++ r = symbol .openBracket :: t) :
    ∃ (key : Phrase .expr) (links : Phrase .links),
      key.kinds ++ symbol .closeBracket :: (links.kinds ++ r) = t := by
  cases q with
  | unlinked =>
    obtain rfl := heq
    cases show true = false from hr.head
  | index key links =>
    rw [Phrase.kinds_index_append] at heq
    exact ⟨key, links, (List.cons.inj heq).2⟩
  | member | call => cases (List.cons.inj heq).1

theorem behind_openParen (hr : Follows .links r) (heq : q.kinds ++ r = symbol .openParen :: t) :
    ∃ (args : Phrase (.list .item)) (links : Phrase .links),
      args.kinds ++ symbol .closeParen :: (links.kinds ++ r) = t := by
  cases q with
  | unlinked =>
    obtain rfl := heq
    cases show true = false from hr.head
  | call args links =>
    rw [Phrase.kinds_call_append] at heq
    exact ⟨args, links, (List.cons.inj heq).2⟩
  | member | index => cases (List.cons.inj heq).1

end

/-- Behind a point stands a name. -/
theorem property (hk : ∀ s, k ≠ name s) : Stuck .links (Follows .links) [symbol .dot] k where
  completable := ⟨.member "x" .unlinked, [name "x"], rfl, by simp⟩
  dead := by
    intro q r later hr heq
    obtain ⟨s, links, ht⟩ := behind_dot hr heq
    exact hk s (List.cons.inj ht).1.symm

theorem member (s : String) (h : Stuck .links (Follows .links) ks k) :
    Stuck .links (Follows .links) ([symbol .dot, name s] ++ ks) k := by
  refine h.within _ (.member s) [] (by simp [Phrase.kinds]) (by simp) ?_
  intro q r later hr heq
  obtain ⟨s', links, ht⟩ := behind_dot hr heq
  exact ⟨links, r, hr, (List.cons.inj ht).2⟩

theorem indexKey (h : Stuck .expr (Follows .expr) ks k) :
    Stuck .links (Follows .links) ([symbol .openBracket] ++ ks) k := by
  refine h.within _ (.index · .unlinked) [symbol .closeBracket] (by simp [Phrase.kinds]) (by simp) ?_
  intro q r later hr heq
  obtain ⟨key, links, ht⟩ := behind_openBracket hr heq
  exact ⟨key, _, follows_expr (by simp) _, ht⟩

theorem indexClose (e : Phrase .expr) (hk : k.EndsExpr) (hne : k ≠ symbol .closeBracket) :
    Stuck .links (Follows .links) ([symbol .openBracket] ++ e.kinds) k := by
  refine expects e (by simp) hk hne _ (.index e .unlinked) [] (by simp [Phrase.kinds]) (by simp) ?_
  intro q r t hr heq
  obtain ⟨key, links, ht⟩ := behind_openBracket hr heq
  exact ⟨key, _, ht⟩

theorem index (e : Phrase .expr) (h : Stuck .links (Follows .links) ks k) :
    Stuck .links (Follows .links)
      ([symbol .openBracket] ++ (e.kinds ++ [symbol .closeBracket]) ++ ks) k := by
  refine h.within _ (.index e) [] (by simp [Phrase.kinds]) (by simp) ?_
  intro q r later hr heq
  rw [List.append_assoc] at heq
  obtain ⟨key, links, ht⟩ := behind_openBracket hr heq
  rw [List.append_assoc] at ht
  have hbehind := (key.unique e trivial (follows_expr (by simp) _) (follows_expr (by simp) _) ht).2
  exact ⟨links, r, hr, (List.cons.inj hbehind).2⟩

theorem callArgs (h : Stuck (.list .item) (ClosedBy .closeParen) ks k) :
    Stuck .links (Follows .links) ([symbol .openParen] ++ ks) k := by
  refine h.within _ (.call · .unlinked) [symbol .closeParen] (by simp [Phrase.kinds]) (by simp) ?_
  intro q r later hr heq
  obtain ⟨args, links, ht⟩ := behind_openParen hr heq
  exact ⟨args, _, ⟨_, rfl⟩, ht⟩

theorem call (args : Phrase (.list .item)) (h : Stuck .links (Follows .links) ks k) :
    Stuck .links (Follows .links)
      ([symbol .openParen] ++ (args.kinds ++ [symbol .closeParen]) ++ ks) k := by
  refine h.within _ (.call args) [] (by simp [Phrase.kinds]) (by simp) ?_
  intro q r later hr heq
  rw [List.append_assoc] at heq
  obtain ⟨args', links, ht⟩ := behind_openParen hr heq
  rw [List.append_assoc] at ht
  have hbehind := (args'.unique args trivial (follows_closer (by rfl) _)
    (follows_closer (by rfl) _) ht).2
  exact ⟨links, r, hr, (List.cons.inj hbehind).2⟩

/-! ### Literals and brackets -/

theorem primary (hk : k.opensPrimary = false) : Stuck .primary (Follows .primary) [] k where
  completable := ⟨.atom (name "x") (.name "x") rfl, [name "x"], rfl, by simp⟩
  dead := by
    intro q r later hr heq
    obtain ⟨k', ks', hk', ho⟩ := q.exists_first rfl
    rw [hk'] at heq
    obtain ⟨rfl, -⟩ := List.cons.inj heq
    rw [show k'.opensPrimary = true from ho] at hk
    simp at hk

section

variable {q : Phrase .primary} {r t : List LexemeKind}

theorem inside_parens (heq : q.kinds ++ r = symbol .openParen :: t) :
    ∃ e : Phrase .expr, e.kinds ++ symbol .closeParen :: r = t := by
  cases q with
  | atom k e hk =>
    obtain ⟨rfl, -⟩ := List.cons.inj heq
    simp [atom?] at hk
  | parens e =>
    rw [Phrase.kinds_parens_append] at heq
    exact ⟨e, (List.cons.inj heq).2⟩
  | array | object => cases (List.cons.inj heq).1

theorem inside_array (heq : q.kinds ++ r = symbol .openBracket :: t) :
    ∃ items : Phrase (.list .item), items.kinds ++ symbol .closeBracket :: r = t := by
  cases q with
  | atom k e hk =>
    obtain ⟨rfl, -⟩ := List.cons.inj heq
    simp [atom?] at hk
  | array items =>
    rw [Phrase.kinds_array_append] at heq
    exact ⟨items, (List.cons.inj heq).2⟩
  | parens | object => cases (List.cons.inj heq).1

theorem inside_object (heq : q.kinds ++ r = symbol .openBrace :: t) :
    ∃ fields : Phrase (.list .field), fields.kinds ++ symbol .closeBrace :: r = t := by
  cases q with
  | atom k e hk =>
    obtain ⟨rfl, -⟩ := List.cons.inj heq
    simp [atom?] at hk
  | object fields =>
    rw [Phrase.kinds_object_append] at heq
    exact ⟨fields, (List.cons.inj heq).2⟩
  | parens | array => cases (List.cons.inj heq).1

end

theorem parens (h : Stuck .expr (Follows .expr) ks k) :
    Stuck .primary (Follows .primary) ([symbol .openParen] ++ ks) k := by
  refine h.within _ .parens [symbol .closeParen] (by simp [Phrase.kinds]) (by simp) ?_
  intro q r later hr heq
  obtain ⟨e, ht⟩ := inside_parens heq
  exact ⟨e, _, follows_expr (by simp) _, ht⟩

theorem parensClose (e : Phrase .expr) (hk : k.EndsExpr) (hne : k ≠ symbol .closeParen) :
    Stuck .primary (Follows .primary) ([symbol .openParen] ++ e.kinds) k := by
  refine expects e (by simp) hk hne _ (.parens e) [] (by simp [Phrase.kinds]) (by simp) ?_
  intro q r t hr heq
  obtain ⟨e', ht⟩ := inside_parens heq
  exact ⟨e', _, ht⟩

theorem array (h : Stuck (.list .item) (ClosedBy .closeBracket) ks k) :
    Stuck .primary (Follows .primary) ([symbol .openBracket] ++ ks) k := by
  refine h.within _ .array [symbol .closeBracket] (by simp [Phrase.kinds]) (by simp) ?_
  intro q r later hr heq
  obtain ⟨items, ht⟩ := inside_array heq
  exact ⟨items, _, ⟨_, rfl⟩, ht⟩

theorem object (h : Stuck (.list .field) (ClosedBy .closeBrace) ks k) :
    Stuck .primary (Follows .primary) ([symbol .openBrace] ++ ks) k := by
  refine h.within _ .object [symbol .closeBrace] (by simp [Phrase.kinds]) (by simp) ?_
  intro q r later hr heq
  obtain ⟨fields, ht⟩ := inside_object heq
  exact ⟨fields, _, ⟨_, rfl⟩, ht⟩

/-! ### Items and fields -/

section

variable {e : Entry} {s : Symbol}

/-- A list that does not end at once has entries. -/
theorem filled (hhead : (ks ++ [k]).head? ≠ some (symbol s))
    (h : Stuck (.entries e) (ClosedBy s) ks k) : Stuck (.list e) (ClosedBy s) ks k := by
  refine h.within [] .filled [] (by simp [Phrase.kinds]) (by simp) ?_
  intro q r later hr heq
  cases q with
  | empty =>
    obtain ⟨r', rfl⟩ := hr
    refine absurd ?_ hhead
    cases ks <;> exact congrArg some (List.cons.inj heq).1.symm
  | filled entries => exact ⟨entries, r, hr, heq⟩

theorem follows_entry {r : List LexemeKind} (hs : (symbol s).isCloser = true)
    (hr : ClosedBy s r) : Follows (.entry e) r := by
  obtain ⟨r', rfl⟩ := hr
  exact follows_cons (.entry e) (endsExpr_of_isCloser hs) r'

theorem entry (hs : (symbol s).isCloser = true) (h : Stuck (.entry e) (Follows (.entry e)) ks k) :
    Stuck (.entries e) (ClosedBy s) ks k := by
  refine h.within [] .last [] (by simp [Phrase.kinds]) (by simp) ?_
  intro q r later hr heq
  cases q with
  | last x => exact ⟨x, r, follows_entry hs hr, heq⟩
  | cons x xs =>
    rw [Phrase.kinds_cons_append] at heq
    exact ⟨x, _, follows_expr (by simp) _, heq⟩

/-- Behind an entry stands a comma or what closes the list. -/
theorem comma (hs : (symbol s).isCloser = true) (x : Phrase (.entry e)) (hk : k.EndsExpr)
    (hcomma : k ≠ symbol .comma) (hne : k ≠ symbol s) :
    Stuck (.entries e) (ClosedBy s) x.kinds k where
  completable := ⟨.last x, [], (List.append_nil _).symm, by simp⟩
  dead := by
    intro q r later hr heq
    have hf : Follows (.entry e) (k :: later) := follows_cons (.entry e) hk _
    cases q with
    | last x' =>
      have hbehind := (x'.unique x trivial (follows_entry hs hr) hf heq).2
      obtain ⟨r', rfl⟩ := hr
      exact hne (List.cons.inj hbehind).1.symm
    | cons x' xs =>
      rw [Phrase.kinds_cons_append] at heq
      have hbehind := (x'.unique x trivial (follows_expr (by simp) _) hf heq).2
      exact hcomma (List.cons.inj hbehind).1.symm

theorem later (hs : (symbol s).isCloser = true) (x : Phrase (.entry e))
    (h : Stuck (.entries e) (ClosedBy s) ks k) :
    Stuck (.entries e) (ClosedBy s) (x.kinds ++ [symbol .comma] ++ ks) k := by
  refine h.within _ (.cons x) [] (by simp [Phrase.kinds]) (by simp) ?_
  intro q r later hr heq
  rw [List.append_assoc] at heq
  have hf : ∀ t, Follows (.entry e) (symbol .comma :: t) := follows_expr (by simp)
  cases q with
  | last x' =>
    -- The comma would have to be what closes the list.
    have hbehind := (x'.unique x trivial (follows_entry hs hr) (hf _) heq).2
    obtain ⟨r', rfl⟩ := hr
    obtain ⟨hcomma, -⟩ := List.cons.inj hbehind
    rw [hcomma] at hs
    simp [isCloser] at hs
  | cons x' xs =>
    rw [Phrase.kinds_cons_append] at heq
    have hbehind := (x'.unique x trivial (hf _) (hf _) heq).2
    exact ⟨xs, r, hr, (List.cons.inj hbehind).2⟩

end

theorem item (h : Stuck .expr (Follows .expr) ks k) :
    Stuck (.entry .item) (Follows (.entry .item)) ks k := by
  refine h.within [] .item [] (by simp [Phrase.kinds]) (by simp) ?_
  intro q r later hr heq
  cases q with
  | item e => exact ⟨e, r, hr, heq⟩

theorem key (hk : k.key? = none) : Stuck (.entry .field) (Follows (.entry .field)) [] k where
  completable := ⟨.field (name "x") "x" rfl .x, [name "x", symbol .colon, name "x"], rfl, by simp⟩
  dead := by
    intro q r later hr heq
    cases q with
    | field k' s hk' e =>
      obtain ⟨rfl, -⟩ := List.cons.inj heq
      simp [hk] at hk'

section

variable {k₀ : LexemeKind} {s : String}

theorem keyColon (hkey : k₀.key? = some s) (hk : k ≠ symbol .colon) :
    Stuck (.entry .field) (Follows (.entry .field)) [k₀] k where
  completable := ⟨.field k₀ s hkey .x, [symbol .colon, name "x"], rfl, by simp⟩
  dead := by
    intro q r later hr heq
    cases q with
    | field k' s' hk' e => exact hk (List.cons.inj (List.cons.inj heq).2).1.symm

theorem value (hkey : k₀.key? = some s) (h : Stuck .expr (Follows .expr) ks k) :
    Stuck (.entry .field) (Follows (.entry .field)) ([k₀, symbol .colon] ++ ks) k := by
  refine h.within _ (.field k₀ s hkey) [] (by simp [Phrase.kinds]) (by simp) ?_
  intro q r later hr heq
  cases q with
  | field k' s' hk' e => exact ⟨e, r, hr, (List.cons.inj (List.cons.inj heq).2).2⟩

end

end Stuck
end TemplateBar.Template
