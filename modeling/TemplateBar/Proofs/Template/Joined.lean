import Mathlib.Data.List.Forall2
import TemplateBar.Proofs.Template.Append

/-!
# Runs of one level

Sources that are operands each, joined by operators of one level, are one flat node of their trees.
An operand gives all its levels back before the next one begins, so the run takes no more of them
than the operand that takes the most.
-/
namespace TemplateBar.Template

/-- The lexemes of the source are one operand: an operator in front of an operand, or a power. -/
def IsOperand (source : String) (u : Phrase .unary) : Prop :=
  ∃ ls, tokenize source = .ok ls ∧ ls.map (·.kind) = u.kinds ++ [.eof]

/-- Sources with operators between them, and a space on both sides of each operator. -/
def joined (first : String) : List (Symbol × String) → String
  | [] => first
  | (s, second) :: rest => first ++ " " ++ String.ofList s.spelling ++ " " ++ joined second rest

/-- The one node of two or more operands of a level. -/
def Level.flat : (l : Level) → Expr → List (l.Op × Expr) → Expr
  | logical op, first, rest => .logical op (first :: rest.map (·.2))
  | chain _, first, rest => .chain first rest

theorem Level.node_of_ne_nil {l : Level} {rest : List (l.Op × Expr)} (h : rest ≠ [])
    (first : Expr) : l.node first rest = l.flat first rest := by
  obtain ⟨second, rest, rfl⟩ := List.exists_cons_of_ne_nil h
  cases l <;> rfl

/-! ### Phrases -/

/-- Operands of the levels are spelled so, have this tree and take so many levels of nesting. -/
def Forms (ls : List Level) (ks : List LexemeKind) (e : Expr) (need : Nat) : Prop :=
  ∃ p : Phrase (.run ls), p.kinds = ks ∧ p.tree = e ∧ p.need = need

/-- An operator and the operand behind it. -/
structure Link (l : Level) where
  symbol : Symbol
  op : l.Op
  mem : (symbol, op) ∈ l.operators
  operand : Phrase .unary

namespace Link

variable {l : Level}

def kinds (x : Link l) : List LexemeKind := .symbol x.symbol :: x.operand.kinds

def tree (x : Link l) : l.Op × Expr := (x.op, x.operand.tree)

/-- The levels that the operand of a run takes which takes the most. -/
def need (first : Phrase .unary) (links : List (Link l)) : Nat :=
  max first.need ((links.map (·.operand.need)).foldr max 0)

theorem need_le_iff {first : Phrase .unary} {links : List (Link l)} {n : Nat} :
    need first links ≤ n ↔ first.need ≤ n ∧ ∀ x ∈ links, x.operand.need ≤ n := by
  rw [need, Nat.max_le]
  refine and_congr_right fun _ => ?_
  induction links with
  | nil => simp
  | cons x links ih => rw [List.map_cons, List.foldr_cons, Nat.max_le, ih, List.forall_mem_cons]

end Link

theorem Forms.looser {ls : List Level} {ks : List LexemeKind} {e : Expr} {n : Nat}
    (h : Forms ls ks e n) (l : Level) : Forms (l :: ls) ks e n := by
  obtain ⟨p, rfl, rfl, rfl⟩ := h
  exact ⟨.run p .done, List.append_nil _, rfl, Nat.max_zero _⟩

theorem forms_operand (u : Phrase .unary) (ls : List Level) : Forms ls u.kinds u.tree u.need := by
  induction ls with
  | nil => exact ⟨.operand u, rfl, rfl, rfl⟩
  | cons l ls ih => exact ih.looser l

theorem exists_rest {l : Level} (ls : List Level) (links : List (Link l)) :
    ∃ p : Phrase (.rest l ls), p.kinds = links.flatMap Link.kinds ∧ p.tree = links.map Link.tree ∧
      p.need = (links.map (·.operand.need)).foldr max 0 := by
  induction links with
  | nil => exact ⟨.done, rfl, rfl, rfl⟩
  | cons x links ih =>
    obtain ⟨p, hkinds, htree, hneed⟩ := ih
    obtain ⟨next, hnext, hnextTree, hnextNeed⟩ := forms_operand x.operand ls
    refine ⟨.more x.symbol x.op x.mem next p, ?_, ?_, ?_⟩
    · rw [Phrase.kinds, hnext, hkinds]
      rfl
    · rw [Phrase.tree, hnextTree, htree]
      rfl
    · rw [Phrase.need, hnextNeed, hneed]
      rfl

theorem forms_run {l : Level} (first : Phrase .unary) (links : List (Link l))
    (front ls : List Level) :
    Forms (front ++ l :: ls) (first.kinds ++ links.flatMap Link.kinds)
      (l.node first.tree (links.map Link.tree)) (Link.need first links) := by
  induction front with
  | nil =>
    obtain ⟨p, hkinds, htree, hneed⟩ := forms_operand first ls
    obtain ⟨rest, hrest, hrestTree, hrestNeed⟩ := exists_rest ls links
    refine ⟨.run p rest, ?_, ?_, ?_⟩
    · rw [Phrase.kinds, hkinds, hrest]
    · rw [Phrase.tree, htree, hrestTree]
    · rw [Phrase.need, hneed, hrestNeed]
      rfl
  | cons l' front ih => exact ih.looser l'

theorem Level.mem_all (l : Level) : l ∈ Level.all := by
  rcases l with op | c
  · cases op <;> decide
  · cases c <;> decide

/-! ### Sources -/

theorem consistsOf_of_isOperand {source : String} {u : Phrase .unary} (h : IsOperand source u) :
    ConsistsOf source.toList u.kinds := by
  obtain ⟨ls, hls, hkinds⟩ := h
  exact consistsOf_of_lexemes hls hkinds

/-- The operator of a link stands in front of a source that is its operand. -/
def Link.Spelled {l : Level} (x : Symbol × String) (y : Link l) : Prop :=
  x.1 = y.symbol ∧ IsOperand x.2 y.operand

theorem consistsOf_joined {l : Level} {rest : List (Symbol × String)} {links : List (Link l)}
    (h : List.Forall₂ Link.Spelled rest links) {first : String} {u : Phrase .unary}
    (hu : IsOperand first u) :
    ConsistsOf (joined first rest).toList (u.kinds ++ links.flatMap Link.kinds) := by
  induction h generalizing first u with
  | nil =>
    rw [List.flatMap_nil, List.append_nil]
    exact consistsOf_of_isOperand hu
  | @cons x y rest links hxy _ ih =>
    obtain ⟨s, second⟩ := x
    obtain ⟨rfl, hoperand⟩ := hxy
    have hsource : (joined first ((y.symbol, second) :: rest)).toList =
        first.toList ++ ' ' :: (y.symbol.spelling ++ ' ' :: (joined second rest).toList) := by
      simp [joined]
    rw [hsource]
    exact (consistsOf_of_isOperand hu).append
      ((consistsOf_of_isSpelling (.symbol y.symbol)).append (ih hoperand))

theorem exists_links {l : Level} {rest : List (Symbol × String)}
    (hops : ∀ x ∈ rest, ∃ op, (x.1, op) ∈ l.operators)
    (hoperands : ∀ x ∈ rest, ∃ u, IsOperand x.2 u) :
    ∃ links : List (Link l), List.Forall₂ Link.Spelled rest links := by
  induction rest with
  | nil => exact ⟨[], .nil⟩
  | cons x rest ih =>
    obtain ⟨⟨op, hop⟩, hops⟩ := List.forall_mem_cons.mp hops
    obtain ⟨⟨u, hu⟩, hoperands⟩ := List.forall_mem_cons.mp hoperands
    obtain ⟨links, hlinks⟩ := ih hops hoperands
    exact ⟨⟨x.1, op, hop, u⟩ :: links, .cons ⟨rfl, hu⟩ hlinks⟩

namespace Expr

theorem parse_of_forms {source : String} {ks : List LexemeKind} {e : Expr} {n : Nat}
    (hsource : ConsistsOf source.toList ks) (h : Forms Level.all ks e n) (D : Nat) :
    parse source D = if n + 1 ≤ D then .ok e else .error (.depthLimit D) := by
  obtain ⟨ls, hls, hkinds⟩ := hsource 0
  obtain ⟨p, rfl, rfl, rfl⟩ := h
  rw [parse, tokenize, hls]
  exact ofLexemes_of_phrase (ended_of_lexemes hls) (.plain p) hkinds D

theorem parse_isOperand {source : String} {u : Phrase .unary} (h : IsOperand source u) (D : Nat) :
    parse source D = if u.need + 1 ≤ D then .ok u.tree else .error (.depthLimit D) :=
  parse_of_forms (consistsOf_of_isOperand h) (forms_operand u Level.all) D

theorem exists_parse_iff {source : String} {u : Phrase .unary} (h : IsOperand source u) {D : Nat} :
    (∃ e, parse source D = .ok e) ↔ u.need + 1 ≤ D := by
  rw [parse_isOperand h]
  by_cases hle : u.need + 1 ≤ D
  · rw [if_pos hle]
    exact ⟨fun _ => hle, fun _ => ⟨_, rfl⟩⟩
  · rw [if_neg hle]
    exact ⟨by rintro ⟨_, ⟨⟩⟩, fun h => absurd h hle⟩

theorem forall_parse_iff {l : Level} {rest : List (Symbol × String)} {links : List (Link l)}
    (h : List.Forall₂ Link.Spelled rest links) {D : Nat} :
    (∀ x ∈ rest, ∃ e, parse x.2 D = .ok e) ↔ ∀ y ∈ links, y.operand.need + 1 ≤ D := by
  induction h with
  | nil => simp
  | cons hxy _ ih => rw [List.forall_mem_cons, List.forall_mem_cons, exists_parse_iff hxy.2, ih]

theorem parse_links {l : Level} {rest : List (Symbol × String)} {links : List (Link l)}
    (h : List.Forall₂ Link.Spelled rest links) {D : Nat}
    (hD : ∀ y ∈ links, y.operand.need + 1 ≤ D) :
    List.Forall₂ (fun x y => (x.1, y.1) ∈ l.operators ∧ parse x.2 D = .ok y.2) rest
      (links.map Link.tree) := by
  induction h with
  | nil => exact .nil
  | @cons x y _ _ hxy _ ih =>
    obtain ⟨hy, hlinks⟩ := List.forall_mem_cons.mp hD
    refine .cons ⟨?_, ?_⟩ (ih hlinks)
    · rw [hxy.1]
      exact y.mem
    · rw [parse_isOperand hxy.2, if_pos hy]
      rfl

/-- Two or more operands that are joined by operators of one level compile with as many levels of
nesting as all of them do by themselves, to one flat node of their trees. -/
theorem parse_joined {l : Level} {first : String} {rest : List (Symbol × String)}
    (hne : rest ≠ []) (hops : ∀ x ∈ rest, ∃ op, (x.1, op) ∈ l.operators)
    (hfirst : ∃ u, IsOperand first u) (hrest : ∀ x ∈ rest, ∃ u, IsOperand x.2 u) (D : Nat) :
    ((∃ e, parse (joined first rest) D = .ok e) ↔
      (∃ e, parse first D = .ok e) ∧ ∀ x ∈ rest, ∃ e, parse x.2 D = .ok e) ∧
    ∀ e, parse (joined first rest) D = .ok e → ∃ t ts, parse first D = .ok t ∧
      List.Forall₂ (fun x y => (x.1, y.1) ∈ l.operators ∧ parse x.2 D = .ok y.2) rest ts ∧
      e = l.flat t ts := by
  obtain ⟨u, hu⟩ := hfirst
  obtain ⟨links, hlinks⟩ := exists_links hops hrest
  obtain ⟨front, ls, hall⟩ := List.append_of_mem l.mem_all
  have hforms := forms_run u links front ls
  rw [← hall] at hforms
  have hlinksNe : links.map Link.tree ≠ [] := by
    rintro hnil
    rw [List.map_eq_nil_iff] at hnil
    subst hnil
    cases hlinks
    exact hne rfl
  have hparse := parse_of_forms (consistsOf_joined hlinks hu) hforms D
  have hneed : Link.need u links + 1 ≤ D ↔
      u.need + 1 ≤ D ∧ ∀ y ∈ links, y.operand.need + 1 ≤ D := by
    cases D with
    | zero => simp
    | succ n => simpa only [Nat.add_le_add_iff_right] using Link.need_le_iff
  rw [hparse, exists_parse_iff hu, forall_parse_iff hlinks, ← hneed]
  by_cases hle : Link.need u links + 1 ≤ D
  · obtain ⟨hfirstNeed, hrestNeed⟩ := hneed.mp hle
    rw [if_pos hle]
    refine ⟨⟨fun _ => hle, fun _ => ⟨_, rfl⟩⟩, ?_⟩
    rintro _ ⟨⟩
    refine ⟨u.tree, links.map Link.tree, ?_, parse_links hlinks hrestNeed, ?_⟩
    · rw [parse_isOperand hu, if_pos hfirstNeed]
    · exact Level.node_of_ne_nil hlinksNe u.tree
  · rw [if_neg hle]
    refine ⟨⟨?_, fun h => absurd h hle⟩, ?_⟩
    · rintro ⟨_, ⟨⟩⟩
    · rintro _ ⟨⟩

theorem isOperand_of_kinds {source : String} {u : Phrase .unary}
    (h : (tokenize source).toOption.map (·.map (·.kind)) = some (u.kinds ++ [.eof])) :
    IsOperand source u := by
  obtain ⟨ls, hls, hkinds⟩ := Option.map_eq_some_iff.mp h
  cases ht : tokenize source with
  | error e =>
    rw [ht] at hls
    cases hls
  | ok ls' =>
    rw [ht] at hls
    cases hls
    exact ⟨ls, ht, hkinds⟩

/-- A sign, a call and a power with two operators of one level between them; the call needs a third
level of nesting. -/
theorem parse_joined_products :
    [(Symbol.star, "f(x)"), (.mod, "c ^ b")] ≠ [] ∧
    (∀ x ∈ [(Symbol.star, "f(x)"), (.mod, "c ^ b")],
      ∃ op, (x.1, op) ∈ (Level.chain .multiplicative).operators) ∧
    (∃ u, IsOperand "-a" u) ∧
    (∀ x ∈ [(Symbol.star, "f(x)"), (.mod, "c ^ b")], ∃ u, IsOperand x.2 u) ∧
    joined "-a" [(.star, "f(x)"), (.mod, "c ^ b")] = "-a * f(x) mod c ^ b" ∧
    (∃ e, parse "-a * f(x) mod c ^ b" 3 = .ok e) ∧ ¬∃ e, parse "-a * f(x) mod c ^ b" 2 = .ok e := by
  have hsign : IsOperand "-a" (.front .minus .neg (by decide) (.tight (.base (.ofName "a")))) :=
    isOperand_of_kinds (by decide +kernel)
  have hcall : IsOperand "f(x)" (.tight (.base (.linked (.atom (.name "f") (.name "f") rfl)
      (.call (.filled (.last (.item (.alone (.tight (.base (.ofName "x"))))))) .unlinked)))) :=
    isOperand_of_kinds (by decide +kernel)
  have hpower : IsOperand "c ^ b" (.tight (.raised (.ofName "c") (.tight (.base (.ofName "b"))))) :=
    isOperand_of_kinds (by decide +kernel)
  have hops : ∀ x ∈ [(Symbol.star, "f(x)"), (.mod, "c ^ b")],
      ∃ op, (x.1, op) ∈ (Level.chain .multiplicative).operators :=
    List.forall_mem_cons.mpr ⟨⟨InfixOp.mul, by simp [Level.operators]⟩,
      List.forall_mem_singleton.mpr ⟨InfixOp.rem, by simp [Level.operators]⟩⟩
  have hrest : ∀ x ∈ [(Symbol.star, "f(x)"), (.mod, "c ^ b")], ∃ u, IsOperand x.2 u :=
    List.forall_mem_cons.mpr ⟨⟨_, hcall⟩, List.forall_mem_singleton.mpr ⟨_, hpower⟩⟩
  have h := parse_joined (by simp) hops ⟨_, hsign⟩ hrest
  refine ⟨by simp, hops, ⟨_, hsign⟩, hrest, rfl, (h 3).1.mpr ⟨?_, ?_⟩, fun hlow => ?_⟩
  · exact (exists_parse_iff hsign).mpr (by decide)
  · exact List.forall_mem_cons.mpr ⟨(exists_parse_iff hcall).mpr (by decide),
      List.forall_mem_singleton.mpr ((exists_parse_iff hpower).mpr (by decide))⟩
  · have hlow' := (List.forall_mem_cons.mp ((h 2).1.mp hlow).2).1
    exact absurd ((exists_parse_iff hcall).mp hlow') (by decide)

end Expr
end TemplateBar.Template
