import TemplateBar.Proofs.Template.Follow

/-!
# Derivations are unique

Two phrases of one category that begin at the same place and end where nothing goes on with them are
the same phrase. The induction follows the first phrase; at each alternative the lexeme at hand
decides which one the second phrase took.
-/
namespace TemplateBar.Template

open LexemeKind

namespace Category

/-- The lexemes behind a phrase begin with one that ends it. -/
def Follows (cat : Category) (r : List LexemeKind) : Prop := ∃ k ks, r = k :: ks ∧ cat.Ends k

theorem follows_cons (cat : Category) {k : LexemeKind} (h : cat.Ends k) (ks : List LexemeKind) :
    cat.Follows (k :: ks) :=
  ⟨k, ks, rfl, h⟩

theorem Follows.imp {cat cat' : Category} {r : List LexemeKind} (hr : cat.Follows r)
    (h : ∀ k, cat.Ends k → cat'.Ends k) : cat'.Follows r := by
  obtain ⟨k, ks, rfl, hk⟩ := hr
  exact ⟨k, ks, rfl, h k hk⟩

theorem Follows.head {cat : Category} {k : LexemeKind} {ks : List LexemeKind}
    (h : cat.Follows (k :: ks)) : cat.Ends k := by
  obtain ⟨k', ks', he, hk⟩ := h
  obtain ⟨rfl, rfl⟩ := List.cons.inj he
  exact hk

theorem entries_ends {e : Entry} {k : LexemeKind} (h : (list e).Ends k) : (entries e).Ends k := by
  refine ⟨endsExpr_of_isCloser h, ?_⟩
  rintro rfl
  simp [Ends, isCloser] at h

theorem follows_question (ks : List LexemeKind) :
    (run Level.all).Follows (.symbol .question :: ks) :=
  follows_cons (run Level.all) endsRun_question ks

theorem follows_expr {s : Symbol}
    (h : s ∈ [Symbol.colon, .comma, .closeParen, .closeBracket, .closeBrace])
    (ks : List LexemeKind) : expr.Follows (.symbol s :: ks) :=
  follows_cons expr (endsExpr_of_mem h) ks

theorem follows_closer {e : Entry} {s : Symbol} (h : (symbol s).isCloser = true)
    (ks : List LexemeKind) : (list e).Follows (.symbol s :: ks) :=
  follows_cons (list e) h ks

end Category

open Category (Follows follows_cons follows_question follows_expr follows_closer)

namespace Phrase

theorem rest_follows {l : Level} {ls : List Level} (p : Phrase (.rest l ls)) (hl : l ∉ ls)
    {r : List LexemeKind} (hr : (Category.rest l ls).Follows r) :
    (Category.run ls).Follows (p.kinds ++ r) := by
  cases p with
  | done => exact hr.imp fun k hk => hk.tail
  | more s op hs next rest => exact follows_cons (.run ls) (endsRun_of_mem hs hl) _

theorem links_follows (p : Phrase .links) {r : List LexemeKind} (hr : Category.links.Follows r) :
    Category.primary.Follows (p.kinds ++ r) := by
  cases p with
  | unlinked => exact hr.imp fun k hk => trivial
  | member | index | call => exact follows_cons .primary trivial _

theorem front_ne_tight {s : Symbol} {op : UnaryOp} (hs : (s, op) ∈ UnaryOp.symbols)
    (p : Phrase .power) {ks r : List LexemeKind} : .symbol s :: ks ≠ p.kinds ++ r := by
  obtain ⟨k, ks', hk, ho⟩ := p.exists_first rfl
  rw [hk]
  intro h
  obtain ⟨rfl, -⟩ := List.cons.inj h
  have hnone := ofKind?_of_opensPrimary ho
  rw [UnaryOp.ofKind?_of_mem hs] at hnone
  simp at hnone

theorem entries_ne_closer {e : Entry} (p : Phrase (.entries e)) {r r' : List LexemeKind}
    (hr : (Category.list e).Follows r) : r ≠ p.kinds ++ r' := by
  obtain ⟨k, ks, hk, ho⟩ := p.exists_first rfl
  rw [hk]
  rintro rfl
  have hc : k.isCloser = true := hr.head
  rw [not_isCloser_of_opensOperand ho] at hc
  simp at hc

/-- Where the phrase begins and something ends it, no other phrase of the category is read. -/
def Unique {cat : Category} (p : Phrase cat) : Prop :=
  ∀ (q : Phrase cat) {r r' : List LexemeKind}, cat.Proper → cat.Follows r → cat.Follows r' →
    p.kinds ++ r = q.kinds ++ r' → p = q ∧ r = r'

theorem unique_plain {c : Phrase (.run Level.all)} (ih : c.Unique) : (plain c).Unique := by
  intro q r r' hp hr hr' h
  have hrun : Follows (.run Level.all) r := hr.imp fun k hk => hk.1
  cases q with
  | plain c' =>
    obtain ⟨rfl, rfl⟩ := ih c' Level.all_nodup hrun (hr'.imp fun k hk => hk.1) h
    exact ⟨rfl, rfl⟩
  | conditional c' a b =>
    rw [kinds_conditional_append] at h
    obtain ⟨-, rfl⟩ := ih c' Level.all_nodup hrun (follows_question _) h
    exact absurd rfl hr.head.2

theorem unique_conditional {c : Phrase (.run Level.all)} {a b : Phrase .expr} (ihc : c.Unique)
    (iha : a.Unique) (ihb : b.Unique) : (conditional c a b).Unique := by
  intro q r r' hp hr hr' h
  cases q with
  | plain c' =>
    rw [kinds_conditional_append] at h
    obtain ⟨-, rfl⟩ := ihc c' Level.all_nodup (follows_question _)
      (hr'.imp fun k hk => hk.1) h
    exact absurd rfl hr'.head.2
  | conditional c' a' b' =>
    rw [kinds_conditional_append, kinds_conditional_append] at h
    obtain ⟨rfl, h₁⟩ := ihc c' Level.all_nodup (follows_question _)
      (follows_question _) h
    obtain ⟨rfl, h₂⟩ := iha a' trivial (follows_expr (by simp) _) (follows_expr (by simp) _)
      (List.cons.inj h₁).2
    obtain ⟨rfl, rfl⟩ := ihb b' trivial hr hr' (List.cons.inj h₂).2
    exact ⟨rfl, rfl⟩

theorem unique_operand {u : Phrase .unary} (ih : u.Unique) : (operand u).Unique := by
  intro q r r' hp hr hr' h
  cases q with
  | operand u' =>
    obtain ⟨rfl, rfl⟩ := ih u' trivial (hr.imp fun k hk => hk.1) (hr'.imp fun k hk => hk.1) h
    exact ⟨rfl, rfl⟩

theorem unique_run {l : Level} {ls : List Level} {first : Phrase (.run ls)}
    {rest : Phrase (.rest l ls)} (ihf : first.Unique) (ihr : rest.Unique) :
    (run first rest).Unique := by
  intro q r r' hp hr hr' h
  cases q with
  | run first' rest' =>
    have hl := List.nodup_cons.mp hp
    rw [kinds_run_append, kinds_run_append] at h
    obtain ⟨rfl, h₁⟩ := ihf first' hl.2 (rest.rest_follows hl.1 hr) (rest'.rest_follows hl.1 hr') h
    obtain ⟨rfl, rfl⟩ := ihr rest' hp hr hr' h₁
    exact ⟨rfl, rfl⟩

theorem unique_done {l : Level} {ls : List Level} : (@done l ls).Unique := by
  intro q r r' hp hr hr' h
  cases q with
  | done => exact ⟨rfl, h⟩
  | more s op hs next rest =>
    obtain rfl := h
    have hnone := EndsRun.operator?_eq_none hr.head
    rw [Level.operator?_of_mem hs] at hnone
    simp at hnone

theorem unique_more {l : Level} {ls : List Level} {s : Symbol} {op : l.Op}
    {hs : (s, op) ∈ l.operators} {next : Phrase (.run ls)} {rest : Phrase (.rest l ls)}
    (ihn : next.Unique) (ihr : rest.Unique) : (more s op hs next rest).Unique := by
  intro q r r' hp hr hr' h
  cases q with
  | done =>
    obtain rfl := h
    have hnone := EndsRun.operator?_eq_none hr'.head
    rw [Level.operator?_of_mem hs] at hnone
    simp at hnone
  | more s' op' hs' next' rest' =>
    have hl := List.nodup_cons.mp hp
    rw [kinds_more_append, kinds_more_append] at h
    obtain ⟨hk, h₁⟩ := List.cons.inj h
    cases hk
    obtain rfl : op = op' := by
      have hop := Level.operator?_of_mem hs
      rw [Level.operator?_of_mem hs'] at hop
      exact (Option.some.inj hop).symm
    obtain ⟨rfl, h₂⟩ := ihn next' hl.2 (rest.rest_follows hl.1 hr) (rest'.rest_follows hl.1 hr') h₁
    obtain ⟨rfl, rfl⟩ := ihr rest' hp hr hr' h₂
    exact ⟨rfl, rfl⟩

theorem unique_front {s : Symbol} {op : UnaryOp} {hs : (s, op) ∈ UnaryOp.symbols}
    {u : Phrase .unary} (ih : u.Unique) : (front s op hs u).Unique := by
  intro q r r' hp hr hr' h
  cases q with
  | front s' op' hs' u' =>
    obtain ⟨hk, h₁⟩ := List.cons.inj h
    cases hk
    obtain rfl : op = op' := by
      have hop := UnaryOp.ofKind?_of_mem hs
      rw [UnaryOp.ofKind?_of_mem hs'] at hop
      exact (Option.some.inj hop).symm
    obtain ⟨rfl, rfl⟩ := ih u' trivial hr hr' h₁
    exact ⟨rfl, rfl⟩
  | tight p => exact absurd h (front_ne_tight hs p)

theorem unique_tight {p : Phrase .power} (ih : p.Unique) : (tight p).Unique := by
  intro q r r' hp hr hr' h
  cases q with
  | front s op hs u => exact absurd h.symm (front_ne_tight hs p)
  | tight p' =>
    obtain ⟨rfl, rfl⟩ := ih p' trivial hr hr' h
    exact ⟨rfl, rfl⟩

theorem unique_base {b : Phrase .linked} (ih : b.Unique) : (base b).Unique := by
  intro q r r' hp hr hr' h
  have hb : Follows .linked r := hr.imp fun k hk => hk.1
  cases q with
  | base b' =>
    obtain ⟨rfl, rfl⟩ := ih b' trivial hb (hr'.imp fun k hk => hk.1) h
    exact ⟨rfl, rfl⟩
  | raised b' x =>
    rw [kinds_raised_append] at h
    obtain ⟨-, rfl⟩ := ih b' trivial hb (follows_cons .linked isLink_caret _) h
    exact absurd rfl hr.head.2

theorem unique_raised {b : Phrase .linked} {x : Phrase .unary} (ihb : b.Unique) (ihx : x.Unique) :
    (raised b x).Unique := by
  intro q r r' hp hr hr' h
  cases q with
  | base b' =>
    rw [kinds_raised_append] at h
    obtain ⟨-, rfl⟩ := ihb b' trivial (follows_cons .linked isLink_caret _)
      (hr'.imp fun k hk => hk.1) h
    exact absurd rfl hr'.head.2
  | raised b' x' =>
    rw [kinds_raised_append, kinds_raised_append] at h
    obtain ⟨rfl, h₁⟩ := ihb b' trivial (follows_cons .linked isLink_caret _)
      (follows_cons .linked isLink_caret _) h
    obtain ⟨rfl, rfl⟩ := ihx x' trivial hr hr' (List.cons.inj h₁).2
    exact ⟨rfl, rfl⟩

theorem unique_linked {p : Phrase .primary} {links : Phrase .links} (ihp : p.Unique)
    (ihl : links.Unique) : (linked p links).Unique := by
  intro q r r' hp hr hr' h
  cases q with
  | linked p' links' =>
    rw [kinds_linked_append, kinds_linked_append] at h
    obtain ⟨rfl, h₁⟩ := ihp p' trivial (links.links_follows hr) (links'.links_follows hr') h
    obtain ⟨rfl, rfl⟩ := ihl links' trivial hr hr' h₁
    exact ⟨rfl, rfl⟩

theorem unique_unlinked : unlinked.Unique := by
  intro q r r' hp hr hr' h
  cases q with
  | unlinked => exact ⟨rfl, h⟩
  | member | index | call =>
    obtain rfl := h
    cases show true = false from hr.head

theorem unique_member {property : String} {links : Phrase .links} (ih : links.Unique) :
    (member property links).Unique := by
  intro q r r' hp hr hr' h
  cases q with
  | unlinked =>
    obtain rfl := h
    cases show true = false from hr'.head
  | member property' links' =>
    obtain ⟨-, h₁⟩ := List.cons.inj h
    obtain ⟨hk, h₂⟩ := List.cons.inj h₁
    cases hk
    obtain ⟨rfl, rfl⟩ := ih links' trivial hr hr' h₂
    exact ⟨rfl, rfl⟩
  | index | call => cases (List.cons.inj h).1

theorem unique_index {key : Phrase .expr} {links : Phrase .links} (ihk : key.Unique)
    (ihl : links.Unique) : (index key links).Unique := by
  intro q r r' hp hr hr' h
  cases q with
  | unlinked =>
    obtain rfl := h
    cases show true = false from hr'.head
  | member | call => cases (List.cons.inj h).1
  | index key' links' =>
    rw [kinds_index_append, kinds_index_append] at h
    obtain ⟨rfl, h₁⟩ := ihk key' trivial (follows_expr (by simp) _) (follows_expr (by simp) _)
      (List.cons.inj h).2
    obtain ⟨rfl, rfl⟩ := ihl links' trivial hr hr' (List.cons.inj h₁).2
    exact ⟨rfl, rfl⟩

theorem unique_call {args : Phrase (.list .item)} {links : Phrase .links} (iha : args.Unique)
    (ihl : links.Unique) : (call args links).Unique := by
  intro q r r' hp hr hr' h
  cases q with
  | unlinked =>
    obtain rfl := h
    cases show true = false from hr'.head
  | member | index => cases (List.cons.inj h).1
  | call args' links' =>
    rw [kinds_call_append, kinds_call_append] at h
    obtain ⟨rfl, h₁⟩ := iha args' trivial (follows_closer (by rfl) _)
      (follows_closer (by rfl) _) (List.cons.inj h).2
    obtain ⟨rfl, rfl⟩ := ihl links' trivial hr hr' (List.cons.inj h₁).2
    exact ⟨rfl, rfl⟩

theorem unique_atom {k : LexemeKind} {e : Expr} {hk : k.atom? = some e} : (atom k e hk).Unique := by
  intro q r r' hp hr hr' h
  cases q with
  | atom k' e' hk' =>
    obtain ⟨rfl, rfl⟩ := List.cons.inj h
    rw [hk] at hk'
    cases hk'
    exact ⟨rfl, rfl⟩
  | parens | array | object =>
    obtain ⟨rfl, -⟩ := List.cons.inj h
    simp [atom?] at hk

theorem unique_parens {e : Phrase .expr} (ih : e.Unique) : (parens e).Unique := by
  intro q r r' hp hr hr' h
  cases q with
  | atom k e' hk =>
    obtain ⟨rfl, -⟩ := List.cons.inj h
    simp [atom?] at hk
  | parens e' =>
    rw [kinds_parens_append, kinds_parens_append] at h
    obtain ⟨rfl, h₁⟩ := ih e' trivial (follows_expr (by simp) _) (follows_expr (by simp) _)
      (List.cons.inj h).2
    exact ⟨rfl, (List.cons.inj h₁).2⟩
  | array | object => cases (List.cons.inj h).1

theorem unique_array {items : Phrase (.list .item)} (ih : items.Unique) : (array items).Unique := by
  intro q r r' hp hr hr' h
  cases q with
  | atom k e' hk =>
    obtain ⟨rfl, -⟩ := List.cons.inj h
    simp [atom?] at hk
  | array items' =>
    rw [kinds_array_append, kinds_array_append] at h
    obtain ⟨rfl, h₁⟩ := ih items' trivial (follows_closer (by rfl) _)
      (follows_closer (by rfl) _) (List.cons.inj h).2
    exact ⟨rfl, (List.cons.inj h₁).2⟩
  | parens | object => cases (List.cons.inj h).1

theorem unique_object {fields : Phrase (.list .field)} (ih : fields.Unique) :
    (object fields).Unique := by
  intro q r r' hp hr hr' h
  cases q with
  | atom k e' hk =>
    obtain ⟨rfl, -⟩ := List.cons.inj h
    simp [atom?] at hk
  | object fields' =>
    rw [kinds_object_append, kinds_object_append] at h
    obtain ⟨rfl, h₁⟩ := ih fields' trivial (follows_closer (by rfl) _)
      (follows_closer (by rfl) _) (List.cons.inj h).2
    exact ⟨rfl, (List.cons.inj h₁).2⟩
  | parens | array => cases (List.cons.inj h).1

theorem unique_empty {e : Entry} : (@empty e).Unique := by
  intro q r r' hp hr hr' h
  cases q with
  | empty => exact ⟨rfl, h⟩
  | filled entries => exact absurd h (entries.entries_ne_closer hr)

theorem unique_filled {e : Entry} {entries : Phrase (.entries e)} (ih : entries.Unique) :
    (filled entries).Unique := by
  intro q r r' hp hr hr' h
  cases q with
  | empty => exact absurd h.symm (entries.entries_ne_closer hr')
  | filled entries' =>
    obtain ⟨rfl, rfl⟩ := ih entries' trivial (hr.imp fun k hk => Category.entries_ends hk)
      (hr'.imp fun k hk => Category.entries_ends hk) h
    exact ⟨rfl, rfl⟩

theorem unique_last {e : Entry} {x : Phrase (.entry e)} (ih : x.Unique) : (last x).Unique := by
  intro q r r' hp hr hr' h
  have hx : Follows (.entry e) r := hr.imp fun k hk => hk.1
  cases q with
  | last x' =>
    obtain ⟨rfl, rfl⟩ := ih x' trivial hx (hr'.imp fun k hk => hk.1) h
    exact ⟨rfl, rfl⟩
  | cons x' xs =>
    rw [kinds_cons_append] at h
    obtain ⟨-, rfl⟩ := ih x' trivial hx (follows_expr (by simp) _) h
    exact absurd rfl hr.head.2

theorem unique_cons {e : Entry} {x : Phrase (.entry e)} {xs : Phrase (.entries e)} (ihx : x.Unique)
    (ihxs : xs.Unique) : (cons x xs).Unique := by
  intro q r r' hp hr hr' h
  cases q with
  | last x' =>
    rw [kinds_cons_append] at h
    obtain ⟨-, rfl⟩ := ihx x' trivial (follows_expr (by simp) _) (hr'.imp fun k hk => hk.1) h
    exact absurd rfl hr'.head.2
  | cons x' xs' =>
    rw [kinds_cons_append, kinds_cons_append] at h
    obtain ⟨rfl, h₁⟩ := ihx x' trivial (follows_expr (by simp) _) (follows_expr (by simp) _) h
    obtain ⟨rfl, rfl⟩ := ihxs xs' trivial hr hr' (List.cons.inj h₁).2
    exact ⟨rfl, rfl⟩

theorem unique_item {e : Phrase .expr} (ih : e.Unique) : (item e).Unique := by
  intro q r r' hp hr hr' h
  cases q with
  | item e' =>
    obtain ⟨rfl, rfl⟩ := ih e' trivial hr hr' h
    exact ⟨rfl, rfl⟩

theorem unique_field {k : LexemeKind} {key : String} {hk : k.key? = some key} {e : Phrase .expr}
    (ih : e.Unique) : (field k key hk e).Unique := by
  intro q r r' hp hr hr' h
  cases q with
  | field k' key' hk' e' =>
    obtain ⟨rfl, h₁⟩ := List.cons.inj h
    rw [hk] at hk'
    cases hk'
    obtain ⟨rfl, rfl⟩ := ih e' trivial hr hr' (List.cons.inj h₁).2
    exact ⟨rfl, rfl⟩

theorem unique {cat : Category} (p : Phrase cat) : p.Unique := by
  induction p with
  | plain c ih => exact unique_plain ih
  | conditional c a b ihc iha ihb => exact unique_conditional ihc iha ihb
  | operand u ih => exact unique_operand ih
  | run first rest ihf ihr => exact unique_run ihf ihr
  | done => exact unique_done
  | more s op hs next rest ihn ihr => exact unique_more ihn ihr
  | front s op hs u ih => exact unique_front ih
  | tight p ih => exact unique_tight ih
  | base b ih => exact unique_base ih
  | raised b x ihb ihx => exact unique_raised ihb ihx
  | linked p links ihp ihl => exact unique_linked ihp ihl
  | unlinked => exact unique_unlinked
  | member property links ih => exact unique_member ih
  | index key links ihk ihl => exact unique_index ihk ihl
  | call args links iha ihl => exact unique_call iha ihl
  | atom k e hk => exact unique_atom
  | parens e ih => exact unique_parens ih
  | array items ih => exact unique_array ih
  | object fields ih => exact unique_object ih
  | empty => exact unique_empty
  | filled entries ih => exact unique_filled ih
  | last x ih => exact unique_last ih
  | cons x xs ihx ihxs => exact unique_cons ihx ihxs
  | item e ih => exact unique_item ih
  | field k key hk e ih => exact unique_field ih

end Phrase
end TemplateBar.Template
