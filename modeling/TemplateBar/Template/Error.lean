import TemplateBar.Template.Symbol
import TemplateBar.Decimal.Layout

/-!
# Failures of expressions

Why a source does not compile or a compiled expression yields no value: the cause of each failure
and its wording.
-/
namespace TemplateBar.Template

/-- The eight kinds of values. -/
inductive ValueKind where
  | null | boolean | number | string | array | object | function | effect
  deriving DecidableEq, Repr

def ValueKind.name : ValueKind → String
  | null => "null"
  | boolean => "boolean"
  | number => "number"
  | string => "string"
  | array => "array"
  | object => "object"
  | function => "function"
  | effect => "effect"

/-- A lexeme's kind: a literal, a name, a fixed spelling or the end of the source. -/
inductive LexemeKind where
  | number (x : Float)
  | string (s : String)
  | name (s : String)
  | symbol (s : Symbol)
  | eof
  deriving DecidableEq, Repr

/-- How messages speak of a lexeme. -/
def LexemeKind.describe : LexemeKind → String
  | number x => "number " ++ Decimal.plainText x
  | string _ => "string"
  | name s => "identifier '" ++ s ++ "'"
  | symbol s => "'" ++ String.ofList s.spelling ++ "'"
  | eof => "end of input"

/-- Why a source does not compile. -/
inductive SyntaxCause where
  | emptySource
  | unknownEscape (c : Char)
  | unterminatedString
  | assignment
  | strayCharacter (c : Char)
  | unexpected (found : LexemeKind)
  | expected (wanted : Symbol) (found : LexemeKind)
  | expectedProperty (found : LexemeKind)
  | expectedKey (found : LexemeKind)
  | other (text : String)
  deriving DecidableEq, Repr

def SyntaxCause.message : SyntaxCause → String
  | emptySource => "empty expression"
  | unknownEscape c => "unknown escape '\\" ++ c.toString ++ "'"
  | unterminatedString => "unterminated string"
  | assignment => "assignment is not supported"
  | strayCharacter c => "unexpected character '" ++ c.toString ++ "'"
  | unexpected found => "unexpected " ++ found.describe
  | expected wanted found =>
    "expected " ++ (LexemeKind.symbol wanted).describe ++ ", found " ++ found.describe
  | expectedProperty found => "expected property name, found " ++ found.describe
  | expectedKey found => "expected object key, found " ++ found.describe
  | other text => text

/-- Why an operation does not apply to its operands. -/
inductive TypeCause where
  | unary (symbol : Symbol) (operand : ValueKind)
  | operands (symbol : Symbol) (left right : ValueKind)
  | property (name : String) (owner : ValueKind)
  | index (owner key : ValueKind)
  | outOfRange (position : Float) (size : Nat)
  | other (text : String)
  deriving DecidableEq, Repr

def TypeCause.message : TypeCause → String
  | unary symbol operand =>
    "cannot apply unary " ++ (LexemeKind.symbol symbol).describe ++ " to " ++ operand.name
  | operands symbol left right =>
    "cannot apply " ++ (LexemeKind.symbol symbol).describe ++ " to " ++ left.name ++ " and " ++
      right.name
  | property name owner => "cannot read property '" ++ name ++ "' of " ++ owner.name
  | .index owner key => "cannot index " ++ owner.name ++ " with " ++ key.name
  | outOfRange position size =>
    "index " ++ Decimal.plainText position ++ " out of range 1.." ++
      String.ofList (Decimal.digitsOfNat size)
  | other text => text

/-- Why a function does not accept its arguments. -/
inductive ArgumentCause where
  | arity (wanted given : Nat)
  | oneOrTwo (given : Nat)
  | notNumber (given : ValueKind)
  | noNumbers
  | unreadable (text : String)
  | inconvertible (given : ValueKind)
  | digitsOutOfRange
  | commandNotString (given : ValueKind)
  | commandExpected
  | other (text : String)
  deriving DecidableEq, Repr

def ArgumentCause.message : ArgumentCause → String
  | arity wanted given =>
    "expected " ++ String.ofList (Decimal.digitsOfNat wanted) ++ " argument(s), got " ++
      String.ofList (Decimal.digitsOfNat given)
  | oneOrTwo given =>
    "expected 1 or 2 arguments, got " ++ String.ofList (Decimal.digitsOfNat given)
  | notNumber given => "expected a number, got " ++ given.name
  | noNumbers => "expected at least one number"
  | unreadable text => "cannot convert '" ++ text ++ "' to a number"
  | inconvertible given => "cannot convert " ++ given.name ++ " to a number"
  | digitsOutOfRange => "digits must be an integer between 0 and 15"
  | commandNotString given => "command must be a string, got " ++ given.name
  | commandExpected => "expected a command name and optional arguments"
  | other text => text

/-- Why an expression yields no value. -/
inductive EvalError where
  | syntaxError (offset : Nat) (cause : SyntaxCause)
  | undefinedName (name : String)
  | typeError (cause : TypeCause)
  | notCallable (kind : String)
  | badArguments (function : String) (cause : ArgumentCause)
  | stepLimit (maxSteps : Nat)
  | depthLimit (maxDepth : Nat)
  deriving DecidableEq, Repr

namespace EvalError

def message : EvalError → String
  | syntaxError offset cause =>
    "Syntax error at offset " ++ String.ofList (Decimal.digitsOfNat offset) ++ ": " ++ cause.message
  | undefinedName name => "Undefined symbol: " ++ name
  | typeError cause => "Type error: " ++ cause.message
  | notCallable kind => "Value is not callable: " ++ kind
  | badArguments function cause => "Invalid arguments for " ++ function ++ ": " ++ cause.message
  | stepLimit maxSteps =>
    "Evaluation exceeded " ++ String.ofList (Decimal.digitsOfNat maxSteps) ++ " steps"
  | depthLimit maxDepth =>
    "Expression nesting exceeds depth " ++ String.ofList (Decimal.digitsOfNat maxDepth)

/-- One of the two budgets was used up. -/
def isLimit : EvalError → Bool
  | stepLimit _ | depthLimit _ => true
  | _ => false

end EvalError
end TemplateBar.Template
