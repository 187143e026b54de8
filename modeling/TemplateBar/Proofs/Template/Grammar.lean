import TemplateBar.Template.Expr.Parse

/-!
# The grammar of expressions

`Phrase` holds the derivations of the grammar, a family over its categories with one constructor for
each alternative of a rule. A phrase spells a list of lexeme kinds and has a tree; parentheses leave
nothing in the tree, and the operands of one level become one flat node.

    expr     := run ("?" expr ":" expr)?
    run      := operand (operator operand)*        one level after the other
    unary    := ("-" | "+" | "!" | "not") unary | power
    power    := linked ("^" unary)?
    linked   := primary ("." name | "[" expr "]" | "(" list? ")")*
    primary  := literal | name | "(" expr ")" | "[" list? "]" | "{" fields? "}"
    list     := expr ("," expr)*
    fields   := key ":" expr ("," key ":" expr)*
-/
namespace TemplateBar.Template

namespace Level

/-- What the operators of a level are in a tree. -/
def Op : Level → Type
  | logical _ => LogicalOp
  | chain _ => InfixOp

def operators : (l : Level) → List (Symbol × l.Op)
  | logical .or => [(.or, LogicalOp.or), (.orOr, LogicalOp.or)]
  | logical .and => [(.and, LogicalOp.and), (.andAnd, LogicalOp.and)]
  | chain .equality => [(.equal, InfixOp.equal), (.notEqual, InfixOp.notEqual)]
  | chain .comparison =>
    [(.less, InfixOp.less), (.lessEqual, InfixOp.lessEqual), (.greater, InfixOp.greater),
      (.greaterEqual, InfixOp.greaterEqual)]
  | chain .additive => [(.plus, InfixOp.add), (.minus, InfixOp.sub)]
  | chain .multiplicative =>
    [(.star, InfixOp.mul), (.slash, InfixOp.div), (.percent, InfixOp.rem), (.mod, InfixOp.rem)]

/-- One operand stands for itself; two or more make one node. -/
def node : (l : Level) → Expr → List (l.Op × Expr) → Expr
  | _, first, [] => first
  | logical op, first, second :: rest => .logical op (first :: second.2 :: rest.map (·.2))
  | chain _, first, second :: rest => .chain first (second :: rest)

end Level

namespace UnaryOp

def symbols : List (Symbol × UnaryOp) :=
  [(.minus, neg), (.plus, plus), (.bang, not), (.not, not)]

end UnaryOp

/-- The kinds of lexemes that are expressions on their own. -/
def LexemeKind.atom? : LexemeKind → Option Expr
  | number x => some (.number x)
  | string s => some (.string s)
  | name s => some (.name s)
  | symbol .true => some (.bool true)
  | symbol .false => some (.bool false)
  | symbol .null => some .null
  | _ => none

def LexemeKind.key? : LexemeKind → Option String
  | name s | string s => some s
  | _ => none

/-- What stands between brackets: the items of an array or a call, or the fields of an object. -/
inductive Entry where
  | item | field

def Entry.Tree : Entry → Type
  | item => Expr
  | field => String × Expr

/-- What a phrase can be: `run` for operands of the levels listed, loosest first, `rest` for the
operators and operands behind the first operand of a level. -/
inductive Category where
  | expr | unary | power | linked | links | primary
  | run (levels : List Level)
  | rest (level : Level) (tighter : List Level)
  | entry (e : Entry)
  | entries (e : Entry)
  | list (e : Entry)

def Category.Tree : Category → Type
  | rest l _ => List (l.Op × Expr)
  | links => Expr → Expr
  | entry e => e.Tree
  | entries e => List e.Tree
  | list e => List e.Tree
  | _ => Expr

inductive Phrase : Category → Type where
  | plain (condition : Phrase (.run Level.all)) : Phrase .expr
  | conditional (condition : Phrase (.run Level.all)) (thenCase elseCase : Phrase .expr) :
      Phrase .expr
  | operand (u : Phrase .unary) : Phrase (.run [])
  | run {l : Level} {ls : List Level} (first : Phrase (.run ls)) (rest : Phrase (.rest l ls)) :
      Phrase (.run (l :: ls))
  | done {l : Level} {ls : List Level} : Phrase (.rest l ls)
  | more {l : Level} {ls : List Level} (s : Symbol) (op : l.Op) (h : (s, op) ∈ l.operators)
      (operand : Phrase (.run ls)) (rest : Phrase (.rest l ls)) : Phrase (.rest l ls)
  | front (s : Symbol) (op : UnaryOp) (h : (s, op) ∈ UnaryOp.symbols) (operand : Phrase .unary) :
      Phrase .unary
  | tight (p : Phrase .power) : Phrase .unary
  | base (b : Phrase .linked) : Phrase .power
  | raised (b : Phrase .linked) (exponent : Phrase .unary) : Phrase .power
  | linked (p : Phrase .primary) (links : Phrase .links) : Phrase .linked
  | unlinked : Phrase .links
  | member (property : String) (links : Phrase .links) : Phrase .links
  | index (key : Phrase .expr) (links : Phrase .links) : Phrase .links
  | call (args : Phrase (.list .item)) (links : Phrase .links) : Phrase .links
  | atom (k : LexemeKind) (e : Expr) (h : k.atom? = some e) : Phrase .primary
  | parens (e : Phrase .expr) : Phrase .primary
  | array (items : Phrase (.list .item)) : Phrase .primary
  | object (fields : Phrase (.list .field)) : Phrase .primary
  | empty {e : Entry} : Phrase (.list e)
  | filled {e : Entry} (entries : Phrase (.entries e)) : Phrase (.list e)
  | last {e : Entry} (x : Phrase (.entry e)) : Phrase (.entries e)
  | cons {e : Entry} (x : Phrase (.entry e)) (xs : Phrase (.entries e)) : Phrase (.entries e)
  | item (e : Phrase .expr) : Phrase (.entry .item)
  | field (k : LexemeKind) (key : String) (h : k.key? = some key) (e : Phrase .expr) :
      Phrase (.entry .field)

namespace Phrase

def kinds {cat : Category} : Phrase cat → List LexemeKind
  | plain c => c.kinds
  | conditional c a b => c.kinds ++ .symbol .question :: (a.kinds ++ .symbol .colon :: b.kinds)
  | operand u => u.kinds
  | run first rest => first.kinds ++ rest.kinds
  | done => []
  | more s _ _ next rest => .symbol s :: (next.kinds ++ rest.kinds)
  | front s _ _ u => .symbol s :: u.kinds
  | tight p => p.kinds
  | base b => b.kinds
  | raised b exponent => b.kinds ++ .symbol .caret :: exponent.kinds
  | linked p links => p.kinds ++ links.kinds
  | unlinked => []
  | member property links => .symbol .dot :: .name property :: links.kinds
  | index key links =>
    .symbol .openBracket :: (key.kinds ++ .symbol .closeBracket :: links.kinds)
  | call args links => .symbol .openParen :: (args.kinds ++ .symbol .closeParen :: links.kinds)
  | atom k _ _ => [k]
  | parens e => .symbol .openParen :: (e.kinds ++ [.symbol .closeParen])
  | array items => .symbol .openBracket :: (items.kinds ++ [.symbol .closeBracket])
  | object fields => .symbol .openBrace :: (fields.kinds ++ [.symbol .closeBrace])
  | empty => []
  | filled entries => entries.kinds
  | last x => x.kinds
  | cons x xs => x.kinds ++ .symbol .comma :: xs.kinds
  | item e => e.kinds
  | field k _ _ e => k :: .symbol .colon :: e.kinds

section

variable (r : List LexemeKind)

theorem kinds_conditional_append (c : Phrase (.run Level.all)) (a b : Phrase .expr) :
    (conditional c a b).kinds ++ r =
      c.kinds ++ .symbol .question :: (a.kinds ++ .symbol .colon :: (b.kinds ++ r)) := by
  show c.kinds ++ .symbol .question :: (a.kinds ++ .symbol .colon :: b.kinds) ++ r = _
  simp only [List.append_assoc, List.cons_append]

theorem kinds_run_append {l : Level} {ls : List Level} (first : Phrase (.run ls))
    (rest : Phrase (.rest l ls)) : (run first rest).kinds ++ r = first.kinds ++ (rest.kinds ++ r) :=
  List.append_assoc _ _ _

theorem kinds_more_append {l : Level} {ls : List Level} (s : Symbol) (op : l.Op)
    (h : (s, op) ∈ l.operators) (next : Phrase (.run ls)) (rest : Phrase (.rest l ls)) :
    (more s op h next rest).kinds ++ r = .symbol s :: (next.kinds ++ (rest.kinds ++ r)) :=
  congrArg (LexemeKind.symbol s :: ·) (List.append_assoc _ _ _)

theorem kinds_raised_append (b : Phrase .linked) (x : Phrase .unary) :
    (raised b x).kinds ++ r = b.kinds ++ .symbol .caret :: (x.kinds ++ r) :=
  List.append_assoc _ _ _

theorem kinds_linked_append (p : Phrase .primary) (links : Phrase .links) :
    (linked p links).kinds ++ r = p.kinds ++ (links.kinds ++ r) :=
  List.append_assoc _ _ _

theorem kinds_index_append (key : Phrase .expr) (links : Phrase .links) :
    (index key links).kinds ++ r =
      .symbol .openBracket :: (key.kinds ++ .symbol .closeBracket :: (links.kinds ++ r)) :=
  congrArg (LexemeKind.symbol .openBracket :: ·) (List.append_assoc _ _ _)

theorem kinds_call_append (args : Phrase (.list .item)) (links : Phrase .links) :
    (call args links).kinds ++ r =
      .symbol .openParen :: (args.kinds ++ .symbol .closeParen :: (links.kinds ++ r)) :=
  congrArg (LexemeKind.symbol .openParen :: ·) (List.append_assoc _ _ _)

theorem kinds_parens_append (e : Phrase .expr) :
    (parens e).kinds ++ r = .symbol .openParen :: (e.kinds ++ .symbol .closeParen :: r) :=
  congrArg (LexemeKind.symbol .openParen :: ·) (List.append_assoc _ _ _)

theorem kinds_array_append (items : Phrase (.list .item)) :
    (array items).kinds ++ r = .symbol .openBracket :: (items.kinds ++ .symbol .closeBracket :: r) :=
  congrArg (LexemeKind.symbol .openBracket :: ·) (List.append_assoc _ _ _)

theorem kinds_object_append (fields : Phrase (.list .field)) :
    (object fields).kinds ++ r = .symbol .openBrace :: (fields.kinds ++ .symbol .closeBrace :: r) :=
  congrArg (LexemeKind.symbol .openBrace :: ·) (List.append_assoc _ _ _)

theorem kinds_cons_append {e : Entry} (x : Phrase (.entry e)) (xs : Phrase (.entries e)) :
    (cons x xs).kinds ++ r = x.kinds ++ .symbol .comma :: (xs.kinds ++ r) :=
  List.append_assoc _ _ _

end

/-- The tree of a phrase; that of links is what they make of the expression in front of them. -/
def tree {cat : Category} : Phrase cat → cat.Tree
  | plain c => c.tree
  | conditional c a b => Expr.conditional c.tree a.tree b.tree
  | operand u => u.tree
  | @run l _ first rest => l.node first.tree rest.tree
  | done => []
  | more _ op _ next rest => (op, next.tree) :: rest.tree
  | front _ op _ u => Expr.unary op u.tree
  | tight p => p.tree
  | base b => b.tree
  | raised b exponent => Expr.power b.tree exponent.tree
  | linked p links => links.tree p.tree
  | unlinked => id
  | member property links => fun owner => links.tree (Expr.member owner property)
  | index key links => fun owner => links.tree (Expr.index owner key.tree)
  | call args links => fun callee => links.tree (Expr.call callee args.tree)
  | atom _ e _ => e
  | parens e => e.tree
  | array items => Expr.array items.tree
  | object fields => Expr.object fields.tree
  | empty => []
  | filled entries => entries.tree
  | last x => [x.tree]
  | cons x xs => x.tree :: xs.tree
  | item e => e.tree
  | field _ key _ e => (key, e.tree)

/-- How many levels of nesting a phrase takes up while it is read. -/
def need {cat : Category} : Phrase cat → Nat
  | plain c => c.need + 1
  | conditional c a b => max c.need (max a.need b.need) + 1
  | operand u => u.need
  | run first rest => max first.need rest.need
  | done => 0
  | more _ _ _ next rest => max next.need rest.need
  | front _ _ _ u => u.need + 1
  | tight p => p.need
  | base b => b.need
  | raised b exponent => max b.need (exponent.need + 1)
  | linked p links => max p.need links.need
  | unlinked => 0
  | member _ links => links.need + 1
  | index key links => max key.need links.need + 1
  | call args links => max args.need links.need + 1
  | atom _ _ _ => 0
  | parens e => e.need
  | array items => items.need
  | object fields => fields.need
  | empty => 0
  | filled entries => entries.need
  | last x => x.need
  | cons x xs => max x.need xs.need
  | item e => e.need
  | field _ _ _ e => e.need

end Phrase
end TemplateBar.Template
