import TemplateBar.Template.Lexeme

/-!
# Reading lexemes

`Cursor` is the place in a lexeme list together with the number of nesting levels in use. A `Parse`
is a step over cursors that yields a value or an error, and a cursor in both cases. The last lexeme
is never passed.
-/
namespace TemplateBar.Template

structure Cursor where
  /-- The lexemes not yet read, the end of the source last. -/
  ahead : List Lexeme
  /-- How many nesting levels are in use. -/
  depth : Nat
  deriving DecidableEq, Repr

def Parse (α : Type) : Type := Cursor → Except EvalError α × Cursor

namespace Parse

variable {α β : Type}

protected def pure (a : α) : Parse α := fun c => (.ok a, c)

protected def bind (p : Parse α) (f : α → Parse β) : Parse β := fun c =>
  match p c with
  | (.ok a, c') => f a c'
  | (.error e, c') => (.error e, c')

instance : Monad Parse where
  pure := Parse.pure
  bind := Parse.bind

def fail (e : EvalError) : Parse α := fun c => (.error e, c)

/-- The lexeme at the cursor. -/
def current (c : Cursor) : Lexeme := c.ahead.headD ⟨.eof, 0⟩

def peek : Parse LexemeKind := fun c => (.ok (current c).kind, c)

def offset : Parse Nat := fun c => (.ok (current c).offset, c)

/-- The cursor behind the current lexeme, unless that is the last one. -/
def step (c : Cursor) : Cursor :=
  match c.ahead with
  | _ :: next :: rest => { c with ahead := next :: rest }
  | _ => c

def advance : Parse Unit := fun c => (.ok (), step c)

/-- A syntax error at the current lexeme. -/
def reject (cause : LexemeKind → SyntaxCause) : Parse α := fun c =>
  (.error (.syntaxError (current c).offset (cause (current c).kind)), c)

/-- Pass the given symbol if it is there. -/
def eat (s : Symbol) : Parse Bool := fun c =>
  if (current c).kind = .symbol s then (.ok true, step c) else (.ok false, c)

/-- Pass the given symbol, which must be there. -/
def expect (s : Symbol) : Parse Unit := fun c =>
  if (current c).kind = .symbol s then (.ok (), step c) else reject (.expected s) c

/-- Run a step one level deeper. A refused level stays counted, as the whole reading ends there. -/
def nested (maxDepth : Nat) (p : Parse α) : Parse α := fun c =>
  let deeper := { c with depth := c.depth + 1 }
  if maxDepth < deeper.depth then (.error (.depthLimit maxDepth), deeper)
  else
    let (result, c') := p deeper
    (result, { c' with depth := c'.depth - 1 })

/-- Run a step one level deeper and give the level back in every case. -/
def charged (maxDepth : Nat) (p : Parse α) : Parse α := fun c =>
  let deeper := { c with depth := c.depth + 1 }
  if maxDepth < deeper.depth then (.error (.depthLimit maxDepth), c)
  else
    let (result, c') := p deeper
    (result, { c' with depth := c'.depth - 1 })

/-- Run a step with the number of lexemes ahead as its fuel. -/
def fueled (p : Nat → Parse α) : Parse α := fun c => p c.ahead.length c

@[simp] theorem pure_apply (a : α) (c : Cursor) : (Pure.pure a : Parse α) c = (.ok a, c) := rfl

theorem bind_apply (p : Parse α) (f : α → Parse β) (c : Cursor) :
    (p >>= f) c = match p c with
      | (.ok a, c') => f a c'
      | (.error e, c') => (.error e, c') := rfl

theorem bind_of_ok {p : Parse α} {f : α → Parse β} {c c' : Cursor} {a : α}
    (h : p c = (.ok a, c')) : (p >>= f) c = f a c' := by simp [bind_apply, h]

theorem bind_of_error {p : Parse α} {f : α → Parse β} {c c' : Cursor} {e : EvalError}
    (h : p c = (.error e, c')) : (p >>= f) c = (.error e, c') := by simp [bind_apply, h]

end Parse
end TemplateBar.Template
