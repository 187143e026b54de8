import TemplateBar.Template.Expr.Basic
import TemplateBar.Template.Expr.Cursor

/-!
# From lexemes to expressions

Each rule of the grammar is a step over cursors, built from the step `expr` for whole expressions
inside it; `expression` closes the circle. Loosest first: conditionals, the levels of binary
operators, operators in front, powers, and chains of member, index and call links. Every
expression, every operator in front, every exponent and every link takes one nesting level. Loops
and the circle itself are bounded by the number of lexemes ahead, as each round reads at least one.
-/
namespace TemplateBar.Template

namespace Expr

open Parse

variable {α : Type}

/-- The pairs of operator and operand that follow an operand. -/
def operandsAfter (operator? : LexemeKind → Option α) (operand : Parse Expr) :
    Nat → Parse (List (α × Expr))
  | 0 => pure []
  | fuel + 1 => do
    match operator? (← peek) with
    | none => return []
    | some op =>
      advance
      let e ← operand
      let rest ← operandsAfter operator? operand fuel
      return (op, e) :: rest

/-- A run of operands of one level. -/
def run (level : Level) (operand : Parse Expr) : Parse Expr :=
  match level with
  | .logical op => do
    let first ← operand
    let rest ← fueled (operandsAfter op.operator? operand)
    return ofLogical op first (rest.map (·.2))
  | .chain l => do
    let first ← operand
    let rest ← fueled (operandsAfter l.operator? operand)
    return ofChain first rest

/-- The levels given, loosest first, over the innermost operands. -/
def runs (levels : List Level) (operand : Parse Expr) : Parse Expr := levels.foldr run operand

/-- One or more items separated by commas, up to and including `close`. -/
def itemsUntil (item : Parse α) (close : Symbol) : Nat → Parse (List α)
  | 0 => reject .unexpected
  | fuel + 1 => do
    let e ← item
    if ← eat close then return [e]
    else
      expect .comma
      let rest ← itemsUntil item close fuel
      return e :: rest

/-- Any number of items separated by commas, up to and including `close`. -/
def list (item : Parse α) (close : Symbol) : Parse (List α) := do
  if ← eat close then return []
  else fueled (itemsUntil item close)

/-- The key of an object's field. -/
def key : Parse String := do
  match ← peek with
  | .name s => advance; return s
  | .string s => advance; return s
  | _ => reject .expectedKey

def field (expr : Parse Expr) : Parse (String × Expr) := do
  let k ← key
  expect .colon
  let e ← expr
  return (k, e)

/-- The name after a point; keywords are no names. -/
def property : Parse String := do
  match ← peek with
  | .name s => advance; return s
  | _ => reject .expectedProperty

/-- A literal, a name, or an expression, list or object in brackets. -/
def primary (expr : Parse Expr) : Parse Expr := do
  match ← peek with
  | .number x => advance; return number x
  | .string s => advance; return string s
  | .name s => advance; return name s
  | .symbol .true => advance; return bool true
  | .symbol .false => advance; return bool false
  | .symbol .null => advance; return null
  | .symbol .openParen => do
    advance
    let e ← expr
    expect .closeParen
    return e
  | .symbol .openBracket => do
    advance
    return array (← list expr .closeBracket)
  | .symbol .openBrace => do
    advance
    return object (← list (field expr) .closeBrace)
  | _ => reject .unexpected

/-- The links after `e`, each charged one level until the last of them is read. -/
def links (maxDepth : Nat) (expr : Parse Expr) : Nat → Expr → Parse Expr
  | 0, e => pure e
  | fuel + 1, e => do
    match ← peek with
    | .symbol .dot =>
      charged maxDepth do
        advance
        let p ← property
        links maxDepth expr fuel (member e p)
    | .symbol .openBracket =>
      charged maxDepth do
        advance
        let i ← expr
        expect .closeBracket
        links maxDepth expr fuel (index e i)
    | .symbol .openParen =>
      charged maxDepth do
        advance
        let args ← list expr .closeParen
        links maxDepth expr fuel (call e args)
    | _ => return e

def linked (maxDepth : Nat) (expr : Parse Expr) : Parse Expr := do
  let e ← primary expr
  fueled fun fuel => links maxDepth expr fuel e

/-- Operators in front, and powers, whose exponent may have operators in front again. -/
def unaryFrom (maxDepth : Nat) (expr : Parse Expr) : Nat → Parse Expr
  | 0 => reject .unexpected
  | fuel + 1 => do
    match UnaryOp.ofKind? (← peek) with
    | some op =>
      advance
      let e ← nested maxDepth (unaryFrom maxDepth expr fuel)
      return unary op e
    | none =>
      let base ← linked maxDepth expr
      if ← eat .caret then
        let exponent ← nested maxDepth (unaryFrom maxDepth expr fuel)
        return power base exponent
      else return base

def unaryLevel (maxDepth : Nat) (expr : Parse Expr) : Parse Expr :=
  fueled (unaryFrom maxDepth expr)

def ternary (maxDepth : Nat) (expr : Parse Expr) : Parse Expr := do
  let condition ← runs Level.all (unaryLevel maxDepth expr)
  if ← eat .question then
    let thenCase ← expr
    expect .colon
    let elseCase ← expr
    return conditional condition thenCase elseCase
  else return condition

/-- A whole expression, nested at most `fuel` deep. -/
def expression (maxDepth : Nat) : Nat → Parse Expr
  | 0 => reject .unexpected
  | fuel + 1 => nested maxDepth (ternary maxDepth (expression maxDepth fuel))

/-- A whole expression at the cursor. -/
def entire (maxDepth : Nat) : Parse Expr := fueled (expression maxDepth)

/-- The expression that a whole list of lexemes spells. -/
def ofLexemes (maxDepth : Nat) (lexemes : List Lexeme) : Except EvalError Expr :=
  let start : Cursor := ⟨lexemes, 0⟩
  if (current start).kind = .eof then .error (.syntaxError 0 .emptySource)
  else
    match entire maxDepth start with
    | (.error e, _) => .error e
    | (.ok e, c) =>
      if (current c).kind = .eof then .ok e
      else .error (.syntaxError (current c).offset (.unexpected (current c).kind))

/-- The expression that a source spells, with at most `maxDepth` levels of nesting. -/
def parse (source : String) (maxDepth : Nat) : Except EvalError Expr :=
  match tokenize source with
  | .error e => .error e
  | .ok lexemes => ofLexemes maxDepth lexemes

end Expr
end TemplateBar.Template
