import TemplateBar.Template.Expr.Basic
import TemplateBar.Template.Builtin

/-!
# Operators on values

The meaning of each operator, of reading a member and of indexing, once the operands are values.
-/
namespace TemplateBar.Template

variable {F : Type}

def UnaryOp.apply : UnaryOp → Value F → Except EvalError (Value F)
  | not, v => .ok (.bool !v.truthy)
  | neg, .number x => .ok (.number (-x))
  | neg, v => .error (.typeError (.unary .minus v.kind))
  | plus, .number x => .ok (.number x)
  | plus, v => .error (.typeError (.unary .plus v.kind))

/-- The remainder with the sign of the divisor; a number is its own remainder by zero. -/
def floorMod (a b : Float) : Float := if b == 0 then a else a - b * (a / b).floor

namespace InfixOp

/-- The operators that yield a number from two numbers. -/
def arithmetic? : InfixOp → Option (Float → Float → Float)
  | add => some (· + ·)
  | sub => some (· - ·)
  | mul => some (· * ·)
  | div => some (· / ·)
  | rem => some floorMod
  | _ => none

/-- The operators that compare two numbers, or two strings by code points. -/
def order? : InfixOp → Option ((Float → Float → Bool) × (String → String → Bool))
  | less => some (fun a b => a < b, fun a b => a < b)
  | lessEqual => some (fun a b => a ≤ b, fun a b => !(b < a : Bool))
  | greater => some (fun a b => b < a, fun a b => b < a)
  | greaterEqual => some (fun a b => b ≤ a, fun a b => !(a < b : Bool))
  | _ => none

def mismatch (op : InfixOp) (a b : Value F) : EvalError :=
  .typeError (.operands op.symbol a.kind b.kind)

/-- One of the values is a string. -/
def joinsTexts : Value F → Value F → Bool
  | .string _, _ | _, .string _ => true
  | _, _ => false

def applyArithmetic (op : InfixOp) (f : Float → Float → Float) :
    Value F → Value F → Except EvalError (Value F)
  | .number a, .number b => .ok (.number (f a b))
  | a, b => .error (op.mismatch a b)

def applyOrder (op : InfixOp) (numbers : Float → Float → Bool) (texts : String → String → Bool) :
    Value F → Value F → Except EvalError (Value F)
  | .number a, .number b => .ok (.bool (numbers a b))
  | .string a, .string b => .ok (.bool (texts a b))
  | a, b => .error (op.mismatch a b)

def apply [DecidableEq F] [FunctionName F] (op : InfixOp) (a b : Value F) :
    Except EvalError (Value F) :=
  match op with
  | equal => .ok (.bool (a.same b))
  | notEqual => .ok (.bool !(a.same b))
  | op =>
    if op = add ∧ joinsTexts a b then .ok (.string (a.display ++ b.display))
    else
      match op.order?, op.arithmetic? with
      | some (numbers, texts), _ => op.applyOrder numbers texts a b
      | none, some f => op.applyArithmetic f a b
      | none, none => .error (op.mismatch a b)

end InfixOp

namespace Value

def power : Value F → Value F → Except EvalError (Value F)
  | number a, number b => .ok (number (Float.pow a b))
  | a, b => .error (.typeError (.operands .caret a.kind b.kind))

/-- A missing member of an object is nothing; strings and arrays have a length. -/
def member : Value F → String → Except EvalError (Value F)
  | object fields, property => .ok ((Dict.get? fields property).getD null)
  | string s, "length" => .ok (number (Float.ofNat s.toList.length))
  | array items, "length" => .ok (number (Float.ofNat items.length))
  | v, property => .error (.typeError (.property property v.kind))

/-- The place, counted from zero, that a position counted from one stands for. -/
def place (position : Float) (size : Nat) : Except EvalError Nat :=
  match wholeNumber? position with
  | some i =>
    if 1 ≤ i ∧ i ≤ size then .ok (i.toNat - 1)
    else .error (.typeError (.outOfRange position size))
  | none => .error (.typeError (.outOfRange position size))

/-- Objects are indexed by strings, arrays and strings by positions counted from one. -/
def index : Value F → Value F → Except EvalError (Value F)
  | object fields, string key => .ok ((Dict.get? fields key).getD null)
  | array items, number x =>
    match place x items.length with
    | .ok i => .ok (items.getD i null)
    | .error e => .error e
  | string s, number x =>
    match place x s.toList.length with
    | .ok i => .ok (string (String.ofList (s.toList.drop i |>.take 1)))
    | .error e => .error e
  | v, key => .error (.typeError (.index v.kind key.kind))

end Value
end TemplateBar.Template
