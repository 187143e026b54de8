import Mathlib.Data.Nat.Choose.Basic
import Mathlib.Order.MinMax
import TemplateBar.Proofs.Template.Parse
import TemplateBar.Proofs.Template.Size

/-!
# How large and how high a source can be

The tree of a phrase has at most one node for each of its lexemes, and its height is bounded by the
levels of nesting that the phrase needs, however long it is. The bound is quadratic: each level adds
a node for each level of binary operators, and links, which are read when the levels inside what is
in front of them have been given back, add as many nodes again as there are levels. So budgets that
are never used up can be told from the number of lexemes and the nesting that the parser allows.
-/
namespace TemplateBar.Template

open Template.Expr (weigh weighItems weigh_node_cons size height)

namespace Entry

/-- The expression in an item or a field. -/
def expr : (e : Entry) → e.Tree → Expr
  | item => id
  | field => Prod.snd

theorem weighItems_item (join : Nat → Nat → Nat) (items : List Expr) :
    weighItems join (items.map item.expr) = weighItems join items :=
  congrArg (weighItems join) (List.map_id items)

theorem weighItems_field (join : Nat → Nat → Nat) (fields : List (String × Expr)) :
    weighItems join (fields.map field.expr) = Expr.weighFields join fields :=
  (Expr.weighFields_eq fields).symm

end Entry

section

variable (l : Level) (first : Expr) (rest : List (l.Op × Expr))

theorem size_node_le :
    (l.node first rest).size ≤
      first.size + (weighItems (· + ·) (rest.map (·.2)) + rest.length) := by
  cases rest with
  | nil => exact Nat.le_add_right _ _
  | cons link rest =>
    rw [size, size, weigh_node_cons, List.length_cons]
    omega

theorem height_node_le :
    (l.node first rest).height ≤ max first.height (weighItems max (rest.map (·.2))) + 1 := by
  cases rest with
  | nil => exact (Nat.le_max_left _ _).trans (Nat.le_succ _)
  | cons link rest => rw [height, height, weigh_node_cons]

end

namespace Category

/-- At most `n` nodes; links make at most as many around what is in front of them, and the operators
of a level are counted for the node that they may make. -/
def SizeLe : (cat : Category) → cat.Tree → Nat → Prop
  | rest _ _, operands, n => weighItems (· + ·) (operands.map (·.2)) + operands.length ≤ n
  | links, f, n => ∀ e, (f e).size ≤ e.size + n
  | entry e, x, n => (e.expr x).size ≤ n
  | entries e, xs, n | list e, xs, n => weighItems (· + ·) (xs.map e.expr) ≤ n
  | expr, e, n | unary, e, n | power, e, n | linked, e, n | primary, e, n | run _, e, n =>
    e.size ≤ n

end Category

namespace Phrase

/-- A tree has no more nodes than its phrase has lexemes. -/
theorem sizeLe {cat : Category} (p : Phrase cat) : cat.SizeLe p.tree p.kinds.length := by
  induction p with
  | plain _ ih | operand _ ih | tight _ ih | base _ ih | filled _ ih | item _ ih => exact ih
  | conditional | front | raised | parens =>
    simp only [Category.SizeLe, size, tree, weigh, kinds, List.length_append, List.length_cons] at *
    omega
  | run first rest hfirst hrest =>
    rw [kinds, List.length_append]
    exact (size_node_le _ _ _).trans (Nat.add_le_add hfirst hrest)
  | done | empty => exact Nat.le_refl _
  | more s op h next rest hnext hrest =>
    change size next.tree + weighItems (· + ·) (rest.tree.map (·.2)) + (rest.tree.length + 1) ≤ _
    simp only [Category.SizeLe, kinds, List.length_append, List.length_cons] at *
    omega
  | linked p links hp hlinks =>
    rw [kinds, List.length_append]
    exact (hlinks p.tree).trans (Nat.add_le_add_right hp _)
  | unlinked => exact fun e => Nat.le_refl _
  | member property links ih =>
    intro e
    have hall : size (links.tree (.member e property)) ≤ size e + 1 + links.kinds.length := ih _
    simp only [tree, kinds, List.length_cons]
    omega
  | index key links hkey hlinks =>
    intro e
    have hkey' : size key.tree ≤ key.kinds.length := hkey
    have hall : size (links.tree (.index e key.tree)) ≤
        size e + size key.tree + 1 + links.kinds.length := hlinks _
    simp only [tree, kinds, List.length_append, List.length_cons]
    omega
  | call args links hargs hlinks =>
    intro e
    have hargs' : weighItems (· + ·) args.tree ≤ args.kinds.length :=
      (Entry.weighItems_item _ _).symm.trans_le hargs
    have hall : size (links.tree (.call e args.tree)) ≤
        size e + weighItems (· + ·) args.tree + 1 + links.kinds.length := hlinks _
    simp only [tree, kinds, List.length_append, List.length_cons]
    omega
  | atom k e h => exact (Expr.weigh_atom h).le
  | array items ih =>
    have hitems : weighItems (· + ·) items.tree ≤ items.kinds.length :=
      (Entry.weighItems_item _ _).symm.trans_le ih
    simp only [Category.SizeLe, size, tree, weigh, kinds, List.length_append, List.length_cons]
    omega
  | object fields ih =>
    have hfields : Expr.weighFields (· + ·) fields.tree ≤ fields.kinds.length :=
      (Entry.weighItems_field _ _).symm.trans_le ih
    simp only [Category.SizeLe, size, tree, weigh, kinds, List.length_append, List.length_cons]
    omega
  | last x ih => exact ih
  | cons x xs hx hxs =>
    change size (Entry.expr _ x.tree) + weighItems (· + ·) (List.map _ xs.tree) ≤ _
    simp only [Category.SizeLe, kinds, List.length_append, List.length_cons] at *
    omega
  | field k key h e ih => exact Nat.le_add_right_of_le (Nat.le_add_right_of_le ih)

end Phrase

/-- The greatest height of an expression that needs so many levels of nesting. -/
def exprHeight : Nat → Nat
  | 0 => 0
  | 1 => 7
  | n + 2 => exprHeight (n + 1) + n + 10

/-- That of an operand of the tightest level. -/
def operandHeight : Nat → Nat
  | 0 => 1
  | n + 1 => exprHeight (n + 1) + n + 3

theorem exprHeight_succ (n : Nat) : exprHeight (n + 1) = 7 + 9 * n + (n + 1) * n / 2 := by
  induction n with
  | zero => rfl
  | succ n ih =>
    have htriangle := Nat.triangle_succ (n + 1)
    rw [Nat.add_sub_cancel, Nat.add_sub_cancel] at htriangle
    rw [exprHeight, ih]
    omega

theorem exprHeight_le_succ (n : Nat) : exprHeight n ≤ exprHeight (n + 1) := by
  cases n with
  | zero => exact Nat.zero_le _
  | succ n =>
    rw [exprHeight]
    omega

theorem exprHeight_mono : Monotone exprHeight := monotone_nat_of_le_succ exprHeight_le_succ

/-- An operator in front adds a node and a level. -/
theorem operandHeight_succ (n : Nat) : operandHeight n + 1 ≤ operandHeight (n + 1) := by
  cases n with
  | zero => decide
  | succ n =>
    simp only [operandHeight, exprHeight]
    omega

theorem operandHeight_mono : Monotone operandHeight :=
  monotone_nat_of_le_succ fun n => (Nat.le_succ _).trans (operandHeight_succ n)

/-- The exponent of a power takes a level of its own, which pays for the node. -/
theorem power_le_operandHeight {n : Nat} (hn : 0 < n) :
    exprHeight n + n + 2 ≤ operandHeight n := by
  cases n with
  | zero => exact absurd hn (Nat.lt_irrefl 0)
  | succ n =>
    rw [operandHeight]
    omega

theorem linked_le_operandHeight (n : Nat) : exprHeight n + n + 1 ≤ operandHeight n := by
  cases n with
  | zero => decide
  | succ n => exact (Nat.le_succ _).trans (power_le_operandHeight n.succ_pos)

/-- The cases of a conditional take a level of their own, which pays for the node. -/
theorem conditional_le_exprHeight {n : Nat} (hn : 0 < n) :
    Level.all.length + operandHeight n + 1 ≤ exprHeight (n + 1) := by
  cases n with
  | zero => exact absurd hn (Nat.lt_irrefl 0)
  | succ n =>
    change 6 + _ + 1 ≤ _
    rw [operandHeight, exprHeight]
    omega

theorem plain_le_exprHeight (n : Nat) :
    Level.all.length + operandHeight n ≤ exprHeight (n + 1) := by
  cases n with
  | zero => decide
  | succ n => exact (Nat.le_succ _).trans (conditional_le_exprHeight n.succ_pos)

namespace Category

/-- At most as high as `n` levels of nesting allow. What is in front of links may be as high as the
expressions in them, for it has given its levels back when they are read. -/
def HeightLe : (cat : Category) → cat.Tree → Nat → Prop
  | expr, e, n => e.height ≤ exprHeight n
  | unary, e, n | power, e, n => e.height ≤ operandHeight n
  | linked, e, n => e.height ≤ exprHeight n + n + 1
  | links, f, n => ∀ e, (f e).height ≤ max e.height (exprHeight n) + n
  | primary, e, n => e.height ≤ exprHeight n + 1
  | run ls, e, n => e.height ≤ ls.length + operandHeight n
  | rest _ ls, operands, n =>
    weighItems max (operands.map (·.2)) ≤ ls.length + operandHeight n
  | entry e, x, n => (e.expr x).height ≤ exprHeight n
  | entries e, xs, n | list e, xs, n => weighItems max (xs.map e.expr) ≤ exprHeight n

theorem HeightLe.mono {cat : Category} {t : cat.Tree} {m n : Nat} (h : cat.HeightLe t m)
    (hmn : m ≤ n) : cat.HeightLe t n := by
  have hexpr := exprHeight_mono hmn
  have hoperand := operandHeight_mono hmn
  cases cat with
  | links =>
    intro e
    exact (h e).trans (by omega)
  | _ => exact h.trans (by omega)

/-- One more link, which makes a node and takes a level. -/
theorem HeightLe.step {f : Expr → Expr} {n : Nat} (hf : links.HeightLe f n) {e node : Expr}
    (hnode : node.height ≤ max e.height (exprHeight n) + 1) :
    (f node).height ≤ max e.height (exprHeight (n + 1)) + (n + 1) := by
  have hall := hf node
  have hmono := exprHeight_le_succ n
  omega

end Category

namespace Phrase

theorem need_pos (p : Phrase .expr) : 0 < p.need := by
  cases p <;> exact Nat.succ_pos _

/-- A tree is no higher than the levels of nesting that its phrase needs allow. -/
theorem heightLe {cat : Category} (p : Phrase cat) : cat.HeightLe p.tree p.need := by
  -- Where a phrase has several parts, their bounds are taken at the greatest need `N` of them.
  induction p with
  | tight _ ih | filled _ ih | item _ ih | field _ _ _ _ ih => exact ih
  | plain c ih => exact ih.trans (plain_le_exprHeight _)
  | conditional c a b hc ha hb =>
    obtain ⟨N, hN⟩ : ∃ N, N = max c.need (max a.need b.need) := ⟨_, rfl⟩
    have hcondition : height c.tree ≤ Level.all.length + operandHeight N := hc.mono (by omega)
    have hthen : height a.tree ≤ exprHeight N := ha.mono (by omega)
    have helse : height b.tree ≤ exprHeight N := hb.mono (by omega)
    have hbranch := linked_le_operandHeight N
    have hpos := a.need_pos
    have hnode := conditional_le_exprHeight (n := N) (by omega)
    change max (height c.tree) (max (height a.tree) (height b.tree)) + 1 ≤
      exprHeight (max c.need (max a.need b.need) + 1)
    rw [← hN]
    omega
  | operand u ih => exact ih.trans (Nat.le_add_left _ _)
  | @run l ls first rest hfirst hrest =>
    obtain ⟨N, hN⟩ : ∃ N, N = max first.need rest.need := ⟨_, rfl⟩
    have hfirst' : height first.tree ≤ ls.length + operandHeight N := hfirst.mono (by omega)
    have hrest' : weighItems max (rest.tree.map (·.2)) ≤ ls.length + operandHeight N :=
      hrest.mono (by omega)
    refine (height_node_le l first.tree rest.tree).trans ?_
    change _ ≤ ls.length + 1 + operandHeight (max first.need rest.need)
    rw [← hN]
    omega
  | done | empty => exact Nat.zero_le _
  | more s op h next rest hnext hrest =>
    exact Nat.max_le.mpr ⟨hnext.mono (Nat.le_max_left _ _), hrest.mono (Nat.le_max_right _ _)⟩
  | front s op h u ih => exact (Nat.succ_le_succ ih).trans (operandHeight_succ _)
  | base b ih => exact ih.trans (linked_le_operandHeight _)
  | raised b x hb hx =>
    obtain ⟨N, hN⟩ : ∃ N, N = max b.need (x.need + 1) := ⟨_, rfl⟩
    have hbase : height b.tree ≤ exprHeight N + N + 1 := hb.mono (by omega)
    have hexponent : height x.tree + 1 ≤ operandHeight N :=
      (Nat.succ_le_succ hx).trans ((operandHeight_succ _).trans (operandHeight_mono (by omega)))
    have hnode := power_le_operandHeight (n := N) (by omega)
    change max (height b.tree) (height x.tree) + 1 ≤ operandHeight (max b.need (x.need + 1))
    rw [← hN]
    omega
  | linked p links hp hlinks =>
    obtain ⟨N, hN⟩ : ∃ N, N = max p.need links.need := ⟨_, rfl⟩
    have hprimary : height p.tree ≤ exprHeight N + 1 := hp.mono (by omega)
    have hall : height (links.tree p.tree) ≤ max (height p.tree) (exprHeight N) + N :=
      hlinks.mono (by omega) p.tree
    change height (links.tree p.tree) ≤
      exprHeight (max p.need links.need) + max p.need links.need + 1
    rw [← hN]
    omega
  | unlinked => exact fun e => Nat.le_max_left _ _
  | member property links ih =>
    exact fun e => ih.step (Nat.succ_le_succ (Nat.le_max_left _ _))
  | index key links hkey hlinks =>
    intro e
    have hkey' : height key.tree ≤ exprHeight (max key.need links.need) :=
      hkey.mono (Nat.le_max_left _ _)
    exact (hlinks.mono (Nat.le_max_right _ _)).step (Nat.succ_le_succ (max_le_max le_rfl hkey'))
  | call args links hargs hlinks =>
    intro e
    have hargs' : weighItems max args.tree ≤ exprHeight (max args.need links.need) :=
      (Entry.weighItems_item _ _).symm.trans_le (hargs.mono (Nat.le_max_left _ _))
    exact (hlinks.mono (Nat.le_max_right _ _)).step (Nat.succ_le_succ (max_le_max le_rfl hargs'))
  | atom k e h => exact (Expr.weigh_atom h).le
  | parens e ih => exact ih.trans (Nat.le_succ _)
  | array items ih => exact Nat.succ_le_succ ((Entry.weighItems_item _ _).symm.trans_le ih)
  | object fields ih => exact Nat.succ_le_succ ((Entry.weighItems_field _ _).symm.trans_le ih)
  | last x ih => exact Nat.max_le.mpr ⟨ih, Nat.zero_le _⟩
  | cons x xs hx hxs =>
    exact Nat.max_le.mpr ⟨hx.mono (Nat.le_max_left _ _), hxs.mono (Nat.le_max_right _ _)⟩

end Phrase

theorem Ended.exists_append {ls : List Lexeme} (h : Ended ls) :
    ∃ before offset, ls = before ++ [⟨.eof, offset⟩] := by
  induction h with
  | last offset => exact ⟨[], offset, rfl⟩
  | @cons l _ _ _ ih =>
    obtain ⟨before, offset, rfl⟩ := ih
    exact ⟨l :: before, offset, rfl⟩

namespace Expr

variable {source : String} {D : Nat} {e : Expr}

/-- What compiles is the tree of a phrase that the levels of nesting suffice for. -/
theorem exists_phrase_of_parse (h : parse source D = .ok e) :
    ∃ (ls : List Lexeme) (offset : Nat) (p : Phrase .expr),
      tokenize source = .ok (ls ++ [⟨.eof, offset⟩]) ∧ ls.map (·.kind) = p.kinds ∧ p.tree = e ∧
        p.need ≤ D := by
  unfold parse at h
  cases ht : tokenize source with
  | error err => simp [ht] at h
  | ok lexemes =>
    replace h : ofLexemes D lexemes = .ok e := by simpa only [ht] using h
    have hended : Ended lexemes := ended_of_lexemes ht
    obtain ⟨p, hkinds, htree⟩ := phrase_of_ofLexemes hended h
    have hneed : p.need ≤ D := by
      by_contra hneed
      rw [ofLexemes_of_phrase hended p hkinds, if_neg hneed] at h
      simp at h
    obtain ⟨ls, offset, rfl⟩ := hended.exists_append
    rw [List.map_append] at hkinds
    exact ⟨ls, offset, p, rfl, List.append_cancel_right hkinds, htree, hneed⟩

theorem size_le_of_parse (h : parse source D = .ok e) :
    ∃ ls offset, tokenize source = .ok (ls ++ [⟨.eof, offset⟩]) ∧ e.size ≤ ls.length := by
  obtain ⟨ls, offset, p, ht, hkinds, rfl, -⟩ := exists_phrase_of_parse h
  refine ⟨ls, offset, ht, ?_⟩
  rw [← List.length_map, hkinds]
  exact p.sizeLe

theorem height_le_of_parse (h : parse source D = .ok e) :
    e.height ≤ 7 + 9 * (D - 1) + D * (D - 1) / 2 := by
  obtain ⟨-, -, p, -, -, rfl, hneed⟩ := exists_phrase_of_parse h
  have hpos := p.need_pos
  obtain ⟨n, rfl⟩ : ∃ n, D = n + 1 := ⟨D - 1, by omega⟩
  rw [Nat.add_sub_cancel, ← exprHeight_succ]
  exact p.heightLe.trans (exprHeight_mono hneed)

variable {F : Type} [DecidableEq F] [HostFunction F]

/-- In any scope, evaluating a source of `n` lexemes that compiles with `D` levels of nesting visits
at most `n` nodes, and none deeper than a bound in `D` alone; so it never fails for a budget that is
as large as that. -/
theorem walk_le_of_parse (hhost : HostsUnlimited F) (h : parse source D = .ok e) :
    ∃ ls offset, tokenize source = .ok (ls ++ [⟨.eof, offset⟩]) ∧
      ∀ scope : Scope F,
        (walk scope 1 e).steps ≤ ls.length ∧
        (walk scope 1 e).depth ≤ 7 + 9 * (D - 1) + D * (D - 1) / 2 ∧
        ∀ limits : Limits,
          (evaluate scope limits e 0).2 ≤ ls.length ∧
          (ls.length ≤ limits.maxSteps →
            ∀ m, (evaluate scope limits e 0).1 ≠ .error (.stepLimit m)) ∧
          (7 + 9 * (D - 1) + D * (D - 1) / 2 ≤ limits.maxDepth →
            ∀ m, (evaluate scope limits e 0).1 ≠ .error (.depthLimit m)) := by
  obtain ⟨ls, offset, ht, hsize⟩ := size_le_of_parse h
  refine ⟨ls, offset, ht, fun scope => ?_⟩
  have hfits := fits_walk scope 1 e
  rw [Nat.add_comm 1] at hfits
  have hsteps := hfits.steps.trans hsize
  have hdepth := hfits.depth_le.trans (height_le_of_parse h)
  refine ⟨hsteps, hdepth, fun limits => ?_⟩
  rw [evaluate, eval_eq_walk]
  obtain ⟨hstep, hdeep⟩ := Walk.within_ne_limit limits (isUnlimited_walk hhost scope 1 e)
  refine ⟨?_, fun hle => hstep (hsteps.trans hle), fun hle => hdeep (hdepth.trans hle)⟩
  calc ((walk scope 1 e).within limits 0).2
      ≤ 0 + (walk scope 1 e).steps := Walk.snd_within_le limits _ 0
    _ ≤ ls.length := by rwa [Nat.zero_add]

theorem hostsUnlimited_itemFunction : HostsUnlimited ItemFunction
  | .translate _, _ => unlimited_ok _
  | .invoke, args => unlimited_invokeEffect args

/-- With one operator of each level both bounds are met. -/
theorem walk_le_of_parse_levels :
    ∃ e, parse "false or true and 'a' == 'b' < 'c' + 'd' * 'e'" 1 = .ok e ∧
      HostsUnlimited ItemFunction ∧ (walk ([] : Scope ItemFunction) 1 e).steps = 13 ∧
      (walk ([] : Scope ItemFunction) 1 e).depth = 7 ∧
      ∀ m, (evaluate ([] : Scope ItemFunction) ⟨13, 7⟩ e 0).1 ≠ .error (.depthLimit m) := by
  have hlexemes : (tokenize "false or true and 'a' == 'b' < 'c' + 'd' * 'e'").toOption =
      some [⟨.symbol .false, 0⟩, ⟨.symbol .or, 6⟩, ⟨.symbol .true, 9⟩, ⟨.symbol .and, 14⟩,
        ⟨.string "a", 18⟩, ⟨.symbol .equal, 22⟩, ⟨.string "b", 25⟩, ⟨.symbol .less, 29⟩,
        ⟨.string "c", 31⟩, ⟨.symbol .plus, 35⟩, ⟨.string "d", 37⟩, ⟨.symbol .star, 41⟩,
        ⟨.string "e", 43⟩, ⟨.eof, 46⟩] := by decide +kernel
  have hparse : parse "false or true and 'a' == 'b' < 'c' + 'd' * 'e'" 1 =
      .ok (.logical .or [.bool false, .logical .and [.bool true,
        .chain (.string "a") [(.equal, .chain (.string "b") [(.less, .chain (.string "c")
          [(.add, .chain (.string "d") [(.mul, .string "e")])])])]]]) := by
    unfold parse
    cases ht : tokenize "false or true and 'a' == 'b' < 'c' + 'd' * 'e'" with
    | error err => rw [ht] at hlexemes; cases hlexemes
    | ok ls =>
      rw [ht] at hlexemes
      cases hlexemes
      rfl
  obtain ⟨ls, offset, hls, h⟩ := walk_le_of_parse hostsUnlimited_itemFunction hparse
  obtain ⟨-, -, hlimits⟩ := h []
  exact ⟨_, hparse, hostsUnlimited_itemFunction, by decide, by decide,
    (hlimits ⟨13, 7⟩).2.2 (by decide)⟩

end Expr
end TemplateBar.Template
