import TemplateBar.Template.Error

/-!
# Expressions

Runs of operators of one level are flat: a chain holds its first operand and the pairs of operator
and operand after it, a logical node its two or more operands.
-/
namespace TemplateBar.Template

inductive UnaryOp where
  | neg | plus | not
  deriving DecidableEq, Repr

/-- The operators that stand between the operands of a chain. -/
inductive InfixOp where
  | add | sub | mul | div | rem | equal | notEqual | less | lessEqual | greater | greaterEqual
  deriving DecidableEq, Repr

inductive LogicalOp where
  | and | or
  deriving DecidableEq, Repr

inductive Expr where
  | null
  | bool (b : Bool)
  | number (x : Float)
  | string (s : String)
  | name (s : String)
  | array (items : List Expr)
  | object (fields : List (String × Expr))
  | unary (op : UnaryOp) (operand : Expr)
  | power (base exponent : Expr)
  | chain (first : Expr) (rest : List (InfixOp × Expr))
  | logical (op : LogicalOp) (operands : List Expr)
  | conditional (condition thenCase elseCase : Expr)
  | member (owner : Expr) (property : String)
  | index (owner key : Expr)
  | call (callee : Expr) (args : List Expr)
  deriving Inhabited, Repr

/-- The symbol that messages show for an operator; both spellings of the remainder show as `%`. -/
def InfixOp.symbol : InfixOp → Symbol
  | add => .plus
  | sub => .minus
  | mul => .star
  | div => .slash
  | rem => .percent
  | equal => .equal
  | notEqual => .notEqual
  | less => .less
  | lessEqual => .lessEqual
  | greater => .greater
  | greaterEqual => .greaterEqual

/-- The levels of chains, from the loosest to the tightest. -/
inductive ChainLevel where
  | equality | comparison | additive | multiplicative
  deriving DecidableEq, Repr

/-- What a lexeme means between two operands of a chain. -/
def ChainLevel.operator? : ChainLevel → LexemeKind → Option InfixOp
  | equality, .symbol .equal => some .equal
  | equality, .symbol .notEqual => some .notEqual
  | comparison, .symbol .less => some .less
  | comparison, .symbol .lessEqual => some .lessEqual
  | comparison, .symbol .greater => some .greater
  | comparison, .symbol .greaterEqual => some .greaterEqual
  | additive, .symbol .plus => some .add
  | additive, .symbol .minus => some .sub
  | multiplicative, .symbol .star => some .mul
  | multiplicative, .symbol .slash => some .div
  | multiplicative, .symbol .percent => some .rem
  | multiplicative, .symbol .mod => some .rem
  | _, _ => none

/-- Whether a lexeme joins two operands of a logical run. -/
def LogicalOp.joins : LogicalOp → LexemeKind → Bool
  | or, .symbol .or | or, .symbol .orOr | and, .symbol .and | and, .symbol .andAnd => true
  | _, _ => false

def LogicalOp.operator? (op : LogicalOp) (kind : LexemeKind) : Option LogicalOp :=
  if op.joins kind then some op else none

/-- The meaning of the symbols that stand in front of an operand. -/
def UnaryOp.ofKind? : LexemeKind → Option UnaryOp
  | .symbol .minus => some .neg
  | .symbol .plus => some .plus
  | .symbol .bang | .symbol .not => some .not
  | _ => none

/-- The levels of binary operators. -/
inductive Level where
  | logical (op : LogicalOp)
  | chain (level : ChainLevel)
  deriving DecidableEq, Repr

/-- All levels from the loosest to the tightest. -/
def Level.all : List Level :=
  [.logical .or, .logical .and, .chain .equality, .chain .comparison, .chain .additive,
    .chain .multiplicative]

namespace Expr

/-- A run without operators is its only operand. -/
def ofChain (first : Expr) : List (InfixOp × Expr) → Expr
  | [] => first
  | link :: rest => chain first (link :: rest)

def ofLogical (op : LogicalOp) (first : Expr) : List Expr → Expr
  | [] => first
  | second :: rest => logical op (first :: second :: rest)

end Expr
end TemplateBar.Template
