import TemplateBar.Proofs.Template.Follow

/-!
# The parser with its counters checked

The grammar once more, over steps that go wrong when a level is given back that was not in use, when
no lexeme is left to look at, and when a loop or the recursion takes more rounds than it was given.
Levels are taken and given back as a machine does it: the links behind an operand take one level
each, and all of them are given back together, whatever ended the chain.
-/
namespace TemplateBar.Template

/-- A step that may go wrong. -/
def Checked (α : Type) : Type := Cursor → Option (Except EvalError α × Cursor)

namespace Checked

variable {α β : Type}

protected def pure (a : α) : Checked α := fun c => some (.ok a, c)

protected def bind (m : Checked α) (f : α → Checked β) : Checked β := fun c =>
  match m c with
  | some (.ok a, c') => f a c'
  | some (.error e, c') => some (.error e, c')
  | none => none

instance : Monad Checked where
  pure := Checked.pure
  bind := Checked.bind

theorem bind_of_ok {m : Checked α} {f : α → Checked β} {c c' : Cursor} {a : α}
    (h : m c = some (.ok a, c')) : (m >>= f) c = f a c' := by
  change Checked.bind m f c = _
  rw [Checked.bind, h]

theorem bind_of_error {m : Checked α} {f : α → Checked β} {c c' : Cursor} {e : EvalError}
    (h : m c = some (.error e, c')) : (m >>= f) c = some (.error e, c') := by
  change Checked.bind m f c = _
  rw [Checked.bind, h]

def stuck : Checked α := fun _ => none

def fail (e : EvalError) : Checked α := fun c => some (.error e, c)

def peek : Checked LexemeKind := fun c =>
  match c.ahead with
  | [] => none
  | l :: _ => some (.ok l.kind, c)

/-- The last lexeme is not passed. -/
def advance : Checked Unit := fun c =>
  match c.ahead with
  | [] => none
  | [_] => some (.ok (), c)
  | _ :: next :: rest => some (.ok (), { c with ahead := next :: rest })

def reject (cause : LexemeKind → SyntaxCause) : Checked α := fun c =>
  match c.ahead with
  | [] => none
  | l :: _ => some (.error (.syntaxError l.offset (cause l.kind)), c)

def eat (s : Symbol) : Checked Bool := do
  if (← peek) = .symbol s then
    advance
    return true
  else return false

def expect (s : Symbol) : Checked Unit := do
  if ← eat s then return () else reject (.expected s)

/-- Take a level, which is counted also when it is one too many. -/
def enter (maxDepth : Nat) : Checked Unit := fun c =>
  let deeper := { c with depth := c.depth + 1 }
  if maxDepth < deeper.depth then some (.error (.depthLimit maxDepth), deeper)
  else some (.ok (), deeper)

/-- Give levels back, which must be in use. -/
def released (n : Nat) (c : Cursor) : Option Cursor :=
  if n ≤ c.depth then some { c with depth := c.depth - n } else none

/-- Give a level back behind a step, however it ends. -/
def releasing (m : Checked α) : Checked α := fun c => do
  let (result, c') ← m c
  return (result, ← released 1 c')

def nested (maxDepth : Nat) (m : Checked α) : Checked α := do
  enter maxDepth
  releasing m

/-! The rules of the grammar, where `fuel` bounds the rounds of each loop. -/

def operandsAfter (operator? : LexemeKind → Option α) (operand : Checked Expr) :
    Nat → Checked (List (α × Expr))
  | 0 => stuck
  | fuel + 1 => do
    match operator? (← peek) with
    | none => return []
    | some op =>
      advance
      let e ← operand
      let rest ← operandsAfter operator? operand fuel
      return (op, e) :: rest

def run (fuel : Nat) (level : Level) (operand : Checked Expr) : Checked Expr := do
  let first ← operand
  let rest ← operandsAfter level.operator? operand fuel
  return level.node first rest

def runs (fuel : Nat) (levels : List Level) (operand : Checked Expr) : Checked Expr :=
  levels.foldr (run fuel) operand

def itemsUntil (item : Checked α) (close : Symbol) : Nat → Checked (List α)
  | 0 => stuck
  | fuel + 1 => do
    let e ← item
    if ← eat close then return [e]
    else
      expect .comma
      let rest ← itemsUntil item close fuel
      return e :: rest

def list (fuel : Nat) (item : Checked α) (close : Symbol) : Checked (List α) := do
  if ← eat close then return []
  else itemsUntil item close fuel

def key : Checked String := do
  match ← peek with
  | .name s => advance; return s
  | .string s => advance; return s
  | _ => reject .expectedKey

def field (expr : Checked Expr) : Checked (String × Expr) := do
  let k ← key
  expect .colon
  let e ← expr
  return (k, e)

def property : Checked String := do
  match ← peek with
  | .name s => advance; return s
  | _ => reject .expectedProperty

def primary (fuel : Nat) (expr : Checked Expr) : Checked Expr := do
  match ← peek with
  | .number x => advance; return .number x
  | .string s => advance; return .string s
  | .name s => advance; return .name s
  | .symbol .true => advance; return .bool true
  | .symbol .false => advance; return .bool false
  | .symbol .null => advance; return .null
  | .symbol .openParen => do
    advance
    let e ← expr
    expect .closeParen
    return e
  | .symbol .openBracket => do
    advance
    return .array (← list fuel expr .closeBracket)
  | .symbol .openBrace => do
    advance
    return .object (← list fuel (field expr) .closeBrace)
  | _ => reject .unexpected

/-- One link behind `e`. -/
def link (fuel : Nat) (expr : Checked Expr) (e : Expr) : Checked Expr := do
  match ← peek with
  | .symbol .dot =>
    advance
    let p ← property
    return .member e p
  | .symbol .openBracket =>
    advance
    let i ← expr
    expect .closeBracket
    return .index e i
  | .symbol .openParen =>
    advance
    let args ← list fuel expr .closeParen
    return .call e args
  | _ => stuck

/-- The links behind `e`, together with how many levels are held for them in the end. -/
def links (maxDepth loops : Nat) (expr : Checked Expr) :
    Nat → Nat → Expr → Cursor → Option (Except EvalError Expr × Nat × Cursor)
  | 0, _, _, _ => none
  | fuel + 1, held, e, c =>
    match c.ahead with
    | [] => none
    | l :: _ =>
      if l.kind.isLink then
        match (enter maxDepth >>= fun _ => link loops expr e) c with
        | none => none
        | some (.error err, c') => some (.error err, held + 1, c')
        | some (.ok e', c') => links maxDepth loops expr fuel (held + 1) e' c'
      else some (.ok e, held, c)

theorem links_succ {D loops fuel held : Nat} {expr : Checked Expr} {e : Expr} {c : Cursor}
    (h : c.ahead ≠ []) :
    links D loops expr (fuel + 1) held e c =
      if (Parse.current c).kind.isLink then
        match (enter D >>= fun _ => link loops expr e) c with
        | none => none
        | some (.error err, c') => some (.error err, held + 1, c')
        | some (.ok e', c') => links D loops expr fuel (held + 1) e' c'
      else some (.ok e, held, c) := by
  obtain ⟨ahead, d⟩ := c
  obtain ⟨l, ls, rfl⟩ := List.exists_cons_of_ne_nil h
  rfl

/-- All levels of the links are given back at once. -/
def linked (maxDepth fuel : Nat) (expr : Checked Expr) : Checked Expr := do
  let e ← primary fuel expr
  fun c => do
    let (result, held, c') ← links maxDepth fuel expr fuel 0 e c
    return (result, ← released held c')

def power (maxDepth : Nat) (base exponent : Checked Expr) : Checked Expr := do
  let b ← base
  if ← eat .caret then
    let x ← nested maxDepth exponent
    return .power b x
  else return b

def unary (maxDepth : Nat) (base : Checked Expr) : Nat → Checked Expr
  | 0 => stuck
  | fuel + 1 => do
    match UnaryOp.ofKind? (← peek) with
    | some op =>
      advance
      let e ← nested maxDepth (unary maxDepth base fuel)
      return .unary op e
    | none => power maxDepth base (unary maxDepth base fuel)

def unaryLevel (maxDepth fuel : Nat) (expr : Checked Expr) : Checked Expr :=
  unary maxDepth (linked maxDepth fuel expr) fuel

def ternary (maxDepth fuel : Nat) (expr : Checked Expr) : Checked Expr := do
  let condition ← runs fuel Level.all (unaryLevel maxDepth fuel expr)
  if ← eat .question then
    let thenCase ← expr
    expect .colon
    let elseCase ← expr
    return .conditional condition thenCase elseCase
  else return condition

def expression (maxDepth : Nat) : Nat → Checked Expr
  | 0 => stuck
  | fuel + 1 => nested maxDepth (ternary maxDepth (fuel + 1) (expression maxDepth fuel))

/-- A source from its first lexeme to its last. -/
def source (maxDepth fuel : Nat) : Checked Expr := do
  if (← peek) = .eof then fail (.syntaxError 0 .emptySource)
  else
    let e ← expression maxDepth fuel
    if (← peek) = .eof then return e else reject .unexpected

end Checked

end TemplateBar.Template
