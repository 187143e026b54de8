import TemplateBar.Template.Value
import TemplateBar.Decimal.Literal
import TemplateBar.Text.Blank

/-!
# Built-in functions

The fixed list of functions that every expression may call, and `invoke`, which turns a command
name into an effect and is only reachable where a scope holds it.
-/
namespace TemplateBar.Template

variable {F : Type}

namespace Builtin

def reject (b : Builtin) (cause : ArgumentCause) : Except EvalError (Value F) :=
  .error (.badArguments b.name cause)

def expectNumber (b : Builtin) : Value F → Except EvalError Float
  | .number x => .ok x
  | v => .error (.badArguments b.name (.notNumber v.kind))

/-- The items of all arguments, if all of them are arrays. -/
def allItems : List (Value F) → Option (List (Value F))
  | [] => some []
  | .array items :: rest => (allItems rest).map (items ++ ·)
  | _ :: _ => none

/-- Arrays are joined to one array, anything else to one string. -/
def concatenation [FunctionName F] (args : List (Value F)) : Value F :=
  match args, allItems args with
  | _ :: _, some items => .array items
  | _, _ => .string (String.join (args.map Value.display))

def toNumber : Value F → Except EvalError (Value F)
  | .number x => .ok (.number x)
  | .bool b => .ok (.number (if b then 1 else 0))
  | .null => .ok (.number 0)
  | .string s =>
    if Text.isAllBlank s then .ok (.number 0)
    else
      match Decimal.readNumber (Text.trimChars s.toList) with
      | some x => .ok (.number x)
      | none => reject .number (.unreadable s)
  | v => reject .number (.inconvertible v.kind)

/-- Rounding to the given number of places after the point. -/
def roundTo (x : Float) (digits : Nat) : Float :=
  let factor := Float.ofNat (Nat.pow 10 digits)
  (x * factor).round / factor

def roundPlaces (x digits : Float) : Except EvalError (Value F) :=
  match wholeNumber? digits with
  | some i =>
    if 0 ≤ i ∧ i ≤ 15 then .ok (.number (roundTo x i.toNat)) else reject .round .digitsOutOfRange
  | none => reject .round .digitsOutOfRange

/-- The lesser of two numbers; one that is no number gives way to the other. -/
def least (a b : Float) : Float := if b < a then b else if a.isNaN then b else a

def greatest (a b : Float) : Float := if a < b then b else if a.isNaN then b else a

/-- Combine one or more numbers from left to right. -/
def foldNumbers (b : Builtin) (op : Float → Float → Float) :
    List (Value F) → Except EvalError (Value F)
  | [] => reject b .noNumbers
  | first :: rest => do
    let x ← expectNumber b first
    let y ← rest.foldlM (fun acc v => do return op acc (← expectNumber b v)) x
    return .number y

/-- The numbers may come as one array. -/
def spread : List (Value F) → List (Value F)
  | [.array items] => items
  | args => args

def unaryNumber (b : Builtin) (op : Float → Float) : List (Value F) → Except EvalError (Value F)
  | [v] => do return .number (op (← expectNumber b v))
  | args => reject b (.arity 1 args.length)

def apply [FunctionName F] : Builtin → List (Value F) → Except EvalError (Value F)
  | concat, args => .ok (concatenation args)
  | string, [v] => .ok (.string v.display)
  | string, args => reject string (.arity 1 args.length)
  | number, [v] => toNumber v
  | number, args => reject number (.arity 1 args.length)
  | round, [v] => do return .number (← expectNumber round v).round
  | round, [v, d] => do
    let x ← expectNumber round v
    let digits ← expectNumber round d
    roundPlaces x digits
  | round, args => reject round (.oneOrTwo args.length)
  | floor, args => unaryNumber floor Float.floor args
  | ceil, args => unaryNumber ceil Float.ceil args
  | abs, args => unaryNumber abs Float.abs args
  | min, args => foldNumbers min least (spread args)
  | max, args => foldNumbers max greatest (spread args)

end Builtin

/-- The effect that `invoke` yields from a command name and perhaps one argument. -/
def invokeEffect : List (Value F) → Except EvalError (Value F)
  | [.string command] => .ok (.effect command .null)
  | [.string command, payload] => .ok (.effect command payload.toJson)
  | .string _ :: _ | [] => .error (.badArguments "invoke" .commandExpected)
  | v :: _ => .error (.badArguments "invoke" (.commandNotString v.kind))

def Function.apply [HostFunction F] : Function F → List (Value F) → Except EvalError (Value F)
  | builtin b, args => b.apply args
  | host f, args => HostFunction.apply f args

end TemplateBar.Template
