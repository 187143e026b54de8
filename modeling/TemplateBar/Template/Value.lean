import TemplateBar.Template.Error
import TemplateBar.Json.Text

/-!
# Values

What expressions yield. Functions are either built in or supplied by the program that embeds the
language: its functions are the elements of a type `F`, and `HostFunction F` says how they are
named and applied. An effect is a request to the host that nothing has carried out yet.
-/
namespace TemplateBar.Template

/-- The functions that every expression may call. -/
inductive Builtin where
  | abs | ceil | concat | floor | max | min | number | round | string
  deriving DecidableEq, Repr

def Builtin.all : List Builtin := [.abs, .ceil, .concat, .floor, .max, .min, .number, .round, .string]

def Builtin.name : Builtin → String
  | abs => "abs"
  | ceil => "ceil"
  | concat => "concat"
  | floor => "floor"
  | max => "max"
  | min => "min"
  | number => "number"
  | round => "round"
  | string => "string"

/-- The function of that name on the fixed list. -/
def Builtin.lookup (name : String) : Option Builtin := all.find? fun b => b.name == name

/-- A function built in or supplied from outside. -/
inductive Function (F : Type) where
  | builtin (b : Builtin)
  | host (f : F)
  deriving DecidableEq, Repr

inductive Value (F : Type) where
  | null
  | bool (b : Bool)
  | number (x : Float)
  | string (s : String)
  | array (items : List (Value F))
  | object (fields : List (String × Value F))
  | function (f : Function F)
  | effect (command : String) (args : Json)
  deriving Inhabited, Repr

/-- The names of functions supplied from outside. -/
class FunctionName (F : Type) where
  name : F → String

/-- Functions supplied from outside: their names, and their results on arguments, which depend on
nothing else. -/
class HostFunction (F : Type) extends FunctionName F where
  apply : F → List (Value F) → Except EvalError (Value F)

/-- The names that an expression sees. -/
abbrev Scope (F : Type) := Dict (Value F)

variable {F : Type}

def Function.name [FunctionName F] : Function F → String
  | builtin b => b.name
  | host f => FunctionName.name f

namespace Value

def kind : Value F → ValueKind
  | null => .null
  | bool _ => .boolean
  | number _ => .number
  | string _ => .string
  | array _ => .array
  | object _ => .object
  | function _ => .function
  | effect _ _ => .effect

/-- Nothing, `false`, zero, no number and the empty string count as false. -/
def truthy : Value F → Bool
  | null => false
  | bool b => b
  | number x => x != 0 && !x.isNaN
  | string s => s != ""
  | _ => true

def string? : Value F → Option String
  | string s => some s
  | _ => none

def number? : Value F → Option Float
  | number x => some x
  | _ => none

mutual

/-- Equality of structure; numbers are compared as numbers. Functions are equal if they are the same
built-in one or equal elements of `F`: two that were supplied apart with the same contents, such as
a translation function made for each of two refreshes, are not told apart. -/
def same [DecidableEq F] : Value F → Value F → Bool
  | null, null => true
  | bool a, bool b => a == b
  | number a, number b => a == b
  | string a, string b => a == b
  | array a, array b => sameItems a b
  | object a, object b => sameFields a b
  | function a, function b => a = b
  | effect c a, effect d b => c == d && a == b
  | _, _ => false

def sameItems [DecidableEq F] : List (Value F) → List (Value F) → Bool
  | [], [] => true
  | a :: as, b :: bs => same a b && sameItems as bs
  | _, _ => false

def sameFields [DecidableEq F] : List (String × Value F) → List (String × Value F) → Bool
  | [], [] => true
  | (k, a) :: as, (l, b) :: bs => k == l && same a b && sameFields as bs
  | _, _ => false

end

/-- Whole numbers up to this magnitude are written as whole numbers in documents. -/
def maxSafeInteger : Nat := 0x1fffffffffffff

/-- The document form of a number. -/
def numberJson (x : Float) : Json :=
  match wholeNumber? x with
  | some i => if i.natAbs ≤ maxSafeInteger then .int i else .float x
  | none => if x.isFinite then .float x else .null

mutual

/-- The document form: functions and numbers that are not finite become nothing. -/
def toJson : Value F → Json
  | null => .null
  | bool b => .bool b
  | number x => numberJson x
  | string s => .string s
  | array items => .array (itemsJson items)
  | object fields => .object (fieldsJson fields)
  | function _ => .null
  | effect command args => .object [("args", args), ("invoke", .string command)]

def itemsJson : List (Value F) → List Json
  | [] => []
  | v :: vs => toJson v :: itemsJson vs

def fieldsJson : List (String × Value F) → List (String × Json)
  | [] => []
  | (k, v) :: fs => (k, toJson v) :: fieldsJson fs

end

mutual

/-- The value that a document stands for. -/
def ofJson : Json → Value F
  | .null => null
  | .bool b => bool b
  | .int i => number (Float.ofInt i)
  | .float x => number x
  | .string s => string s
  | .array items => array (ofItems items)
  | .object fields => object (ofFields fields)

def ofItems : List Json → List (Value F)
  | [] => []
  | j :: js => ofJson j :: ofItems js

def ofFields : List (String × Json) → List (String × Value F)
  | [] => []
  | (k, j) :: fs => (k, ofJson j) :: ofFields fs

end

/-- The text that a value renders as: a string is itself, all else its document form. -/
def canonical : Value F → String
  | string s => s
  | v => v.toJson.text

/-- The text that concatenation shows. -/
def display [FunctionName F] : Value F → String
  | null => "null"
  | bool true => "true"
  | bool false => "false"
  | number x => Decimal.displayText x
  | string s => s
  | function f => "<function " ++ f.name ++ ">"
  | v => v.toJson.text

end Value
end TemplateBar.Template
