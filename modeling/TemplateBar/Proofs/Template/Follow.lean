import TemplateBar.Proofs.Template.Grammar

/-!
# First and following lexemes

What a phrase of a category begins with, and what may stand behind it so that it ends there: a kind
of lexeme that does not go on with it. No kind is an operator of two levels.
-/
namespace TemplateBar.Template

namespace Level

def operator? : (l : Level) → LexemeKind → Option l.Op
  | logical op => op.operator?
  | chain l => l.operator?

/-- The level whose operator a kind of lexeme is. -/
def ofKind? : LexemeKind → Option Level
  | .symbol .or | .symbol .orOr => some (logical .or)
  | .symbol .and | .symbol .andAnd => some (logical .and)
  | .symbol .equal | .symbol .notEqual => some (chain .equality)
  | .symbol .less | .symbol .lessEqual | .symbol .greater | .symbol .greaterEqual =>
    some (chain .comparison)
  | .symbol .plus | .symbol .minus => some (chain .additive)
  | .symbol .star | .symbol .slash | .symbol .percent | .symbol .mod => some (chain .multiplicative)
  | _ => none

theorem operator?_and_ofKind?_of_mem {l : Level} {s : Symbol} {op : l.Op}
    (h : (s, op) ∈ l.operators) :
    l.operator? (.symbol s) = some op ∧ ofKind? (.symbol s) = some l := by
  cases l with
  | logical o =>
    cases o <;> simp only [operators, List.mem_cons, List.not_mem_nil, or_false] at h <;>
      rcases h with h | h <;> cases h <;> exact ⟨rfl, rfl⟩
  | chain c =>
    cases c <;> simp only [operators, List.mem_cons, List.not_mem_nil, or_false] at h
    case equality | additive => rcases h with h | h <;> cases h <;> exact ⟨rfl, rfl⟩
    case comparison | multiplicative =>
      rcases h with h | h | h | h <;> cases h <;> exact ⟨rfl, rfl⟩

theorem operator?_of_mem {l : Level} {s : Symbol} {op : l.Op} (h : (s, op) ∈ l.operators) :
    l.operator? (.symbol s) = some op :=
  (operator?_and_ofKind?_of_mem h).1

theorem ofKind?_of_mem {l : Level} {s : Symbol} {op : l.Op} (h : (s, op) ∈ l.operators) :
    ofKind? (.symbol s) = some l :=
  (operator?_and_ofKind?_of_mem h).2

theorem mem_of_operator? {l : Level} {k : LexemeKind} {op : l.Op} (h : l.operator? k = some op) :
    ∃ s, k = .symbol s ∧ (s, op) ∈ l.operators := by
  cases l with
  | logical o =>
    change o.operator? k = some op at h
    unfold LogicalOp.operator? at h
    split at h
    · rename_i hjoins
      obtain rfl := Option.some.inj h
      unfold LogicalOp.joins at hjoins
      split at hjoins <;> first
        | exact ⟨_, rfl, by simp [operators]⟩
        | simp at hjoins
    · simp at h
  | chain c =>
    change c.operator? k = some op at h
    unfold ChainLevel.operator? at h
    split at h <;> first
      | exact ⟨_, rfl, by cases h; simp [operators]⟩
      | simp at h

theorem operator?_eq_none {l : Level} {k : LexemeKind} (h : ofKind? k ≠ some l) :
    l.operator? k = none := by
  cases ho : l.operator? k with
  | none => rfl
  | some op =>
    obtain ⟨s, rfl, hmem⟩ := mem_of_operator? ho
    exact absurd (ofKind?_of_mem hmem) h

theorem exists_operator? {l : Level} {k : LexemeKind} (h : ofKind? k = some l) :
    ∃ op, l.operator? k = some op := by
  unfold ofKind? at h
  split at h <;> first
    | cases h; exact ⟨_, rfl⟩
    | simp at h

theorem all_nodup : all.Nodup := by decide

end Level

theorem UnaryOp.ofKind?_of_mem {s : Symbol} {op : UnaryOp} (h : (s, op) ∈ UnaryOp.symbols) :
    UnaryOp.ofKind? (.symbol s) = some op := by
  simp only [symbols, List.mem_cons, List.not_mem_nil, or_false] at h
  rcases h with h | h | h | h <;> cases h <;> rfl

theorem UnaryOp.mem_of_ofKind? {k : LexemeKind} {op : UnaryOp} (h : UnaryOp.ofKind? k = some op) :
    ∃ s, k = .symbol s ∧ (s, op) ∈ UnaryOp.symbols := by
  unfold UnaryOp.ofKind? at h
  split at h <;> first
    | exact ⟨_, rfl, by cases h; simp [symbols]⟩
    | simp at h

namespace LexemeKind

def opensPrimary : LexemeKind → Bool
  | number _ | string _ | name _ => true
  | symbol .true | symbol .false | symbol .null => true
  | symbol .openParen | symbol .openBracket | symbol .openBrace => true
  | _ => false

def opensOperand (k : LexemeKind) : Bool := k.opensPrimary || (UnaryOp.ofKind? k).isSome

def isLink : LexemeKind → Bool
  | symbol .dot | symbol .openBracket | symbol .openParen => true
  | _ => false

def isCloser : LexemeKind → Bool
  | symbol .closeParen | symbol .closeBracket | symbol .closeBrace => true
  | _ => false

/-- No link and no power goes on here. -/
def EndsOperand (k : LexemeKind) : Prop := k.isLink = false ∧ k ≠ symbol .caret

/-- No operand and no operator of the levels goes on here. -/
def EndsRun (levels : List Level) (k : LexemeKind) : Prop :=
  k.EndsOperand ∧ ∀ l, Level.ofKind? k = some l → l ∉ levels

def EndsExpr (k : LexemeKind) : Prop := k.EndsRun Level.all ∧ k ≠ symbol .question

theorem EndsRun.of_subset {ls ls' : List Level} {k : LexemeKind} (hs : ∀ l ∈ ls, l ∈ ls')
    (h : k.EndsRun ls') : k.EndsRun ls :=
  ⟨h.1, fun l hl hmem => h.2 l hl (hs l hmem)⟩

theorem EndsRun.tail {l : Level} {ls : List Level} {k : LexemeKind} (h : k.EndsRun (l :: ls)) :
    k.EndsRun ls :=
  h.of_subset fun _ hl => List.mem_cons_of_mem _ hl

theorem EndsRun.operator?_eq_none {l : Level} {ls : List Level} {k : LexemeKind}
    (h : k.EndsRun (l :: ls)) : l.operator? k = none :=
  Level.operator?_eq_none fun hk => h.2 l hk List.mem_cons_self

theorem endsOperand_of_ofKind? {k : LexemeKind} {l : Level} (h : Level.ofKind? k = some l) :
    k.EndsOperand := by
  unfold Level.ofKind? at h
  split at h <;> first
    | exact ⟨rfl, by simp⟩
    | simp at h

/-- An operator ends the operands of the tighter levels. -/
theorem endsRun_of_mem {l : Level} {ls : List Level} {s : Symbol} {op : l.Op}
    (h : (s, op) ∈ l.operators) (hl : l ∉ ls) : (symbol s).EndsRun ls := by
  have hk := Level.ofKind?_of_mem h
  refine ⟨endsOperand_of_ofKind? hk, fun l' hl' => ?_⟩
  rw [hk] at hl'
  cases hl'
  exact hl

theorem endsRun_of_ofKind?_eq_none {k : LexemeKind} (ls : List Level) (h : Level.ofKind? k = none)
    (ho : k.EndsOperand) : k.EndsRun ls :=
  ⟨ho, fun l hl => by simp [h] at hl⟩

/-- What closes or separates inside brackets and conditionals ends an expression. -/
theorem endsExpr_of_mem {s : Symbol}
    (h : s ∈ [Symbol.colon, .comma, .closeParen, .closeBracket, .closeBrace]) :
    (symbol s).EndsExpr := by
  simp only [List.mem_cons, List.not_mem_nil, or_false] at h
  rcases h with rfl | rfl | rfl | rfl | rfl <;>
    exact ⟨endsRun_of_ofKind?_eq_none _ rfl ⟨rfl, by simp⟩, by simp⟩

theorem endsExpr_eof : eof.EndsExpr :=
  ⟨endsRun_of_ofKind?_eq_none _ rfl ⟨rfl, by simp⟩, by simp⟩

theorem endsExpr_of_isCloser {k : LexemeKind} (h : k.isCloser = true) : k.EndsExpr := by
  unfold isCloser at h
  split at h <;> first
    | exact endsExpr_of_mem (by simp)
    | simp at h

theorem endsRun_question : (symbol .question).EndsRun Level.all :=
  endsRun_of_ofKind?_eq_none _ rfl ⟨rfl, by simp⟩

theorem isLink_caret : (symbol .caret).isLink = false := rfl

theorem ofKind?_of_opensPrimary {k : LexemeKind} (h : k.opensPrimary = true) :
    UnaryOp.ofKind? k = none := by
  unfold opensPrimary at h
  split at h <;> first
    | rfl
    | simp at h

theorem not_isCloser_of_opensOperand {k : LexemeKind} (h : k.opensOperand = true) :
    k.isCloser = false := by
  unfold isCloser
  split <;> first
    | rfl
    | simp [opensOperand, opensPrimary, UnaryOp.ofKind?] at h

theorem opensPrimary_of_atom? {k : LexemeKind} {e : Expr} (h : k.atom? = some e) :
    k.opensPrimary = true := by
  unfold atom? at h
  split at h <;> first
    | rfl
    | simp at h

theorem opensPrimary_of_key? {k : LexemeKind} {key : String} (h : k.key? = some key) :
    k.opensPrimary = true := by
  unfold key? at h
  split at h <;> first
    | rfl
    | simp at h

end LexemeKind

namespace Category

/-- What a phrase of a category begins with; a phrase without lexemes begins with nothing. -/
def Opens : Category → LexemeKind → Prop
  | power, k | linked, k | primary, k => k.opensPrimary = true
  | expr, k | unary, k | run _, k | entry _, k | entries _, k => k.opensOperand = true
  | rest _ _, _ | links, _ | list _, _ => False

def Ends : Category → LexemeKind → Prop
  | primary, _ => True
  | links, k | linked, k => k.isLink = false
  | unary, k | power, k => k.EndsOperand
  | run ls, k => k.EndsRun ls
  | rest l ls, k => k.EndsRun (l :: ls)
  | expr, k | entry _, k => k.EndsExpr
  | entries _, k => k.EndsExpr ∧ k ≠ .symbol .comma
  | list _, k => k.isCloser = true

/-- Phrases of the category have lexemes. -/
def solid : Category → Bool
  | rest _ _ | links | list _ => false
  | _ => true

/-- No level stands in a list of levels twice. -/
def Proper : Category → Prop
  | run ls => ls.Nodup
  | rest l ls => (l :: ls).Nodup
  | _ => True

end Category

theorem Phrase.exists_first {cat : Category} (p : Phrase cat) (h : cat.solid = true) :
    ∃ k ks, p.kinds = k :: ks ∧ cat.Opens k := by
  induction p with
  | done | unlinked | member | index | call | empty | filled | more => simp [Category.solid] at h
  | plain c ih | operand u ih | base b ih | last x ih | item e ih => exact ih rfl
  | conditional c a b ih | run c b ih | raised c b ih | linked c b ih | cons c b ih =>
    obtain ⟨k, ks, hk, ho⟩ := ih rfl
    exact ⟨k, _, by rw [kinds, hk]; rfl, ho⟩
  | front s op hs u ih =>
    refine ⟨_, _, rfl, ?_⟩
    simp [Category.Opens, LexemeKind.opensOperand, UnaryOp.ofKind?_of_mem hs]
  | tight p ih =>
    obtain ⟨k, ks, hk, ho⟩ := ih rfl
    refine ⟨k, ks, hk, ?_⟩
    simpa [Category.Opens, LexemeKind.opensOperand] using Or.inl ho
  | atom k e hk => exact ⟨k, [], rfl, LexemeKind.opensPrimary_of_atom? hk⟩
  | parens | array | object => exact ⟨_, _, rfl, rfl⟩
  | field k key hk e ih =>
    refine ⟨_, _, rfl, ?_⟩
    simp [Category.Opens, LexemeKind.opensOperand, LexemeKind.opensPrimary_of_key? hk]

end TemplateBar.Template
