/-!
# Fixed spellings of the expression language

Keywords, operators and brackets, each with its one spelling.
-/
namespace TemplateBar.Template

inductive Symbol where
  | true | false | null | and | or | not | mod
  | plus | minus | star | slash | percent | caret | bang
  | equal | notEqual | less | lessEqual | greater | greaterEqual | andAnd | orOr
  | question | colon | comma | dot
  | openParen | closeParen | openBracket | closeBracket | openBrace | closeBrace
  deriving DecidableEq, Repr

namespace Symbol

def spelling : Symbol → List Char
  | true => ['t', 'r', 'u', 'e']
  | false => ['f', 'a', 'l', 's', 'e']
  | null => ['n', 'u', 'l', 'l']
  | and => ['a', 'n', 'd']
  | or => ['o', 'r']
  | not => ['n', 'o', 't']
  | mod => ['m', 'o', 'd']
  | plus => ['+']
  | minus => ['-']
  | star => ['*']
  | slash => ['/']
  | percent => ['%']
  | caret => ['^']
  | bang => ['!']
  | equal => ['=', '=']
  | notEqual => ['!', '=']
  | less => ['<']
  | lessEqual => ['<', '=']
  | greater => ['>']
  | greaterEqual => ['>', '=']
  | andAnd => ['&', '&']
  | orOr => ['|', '|']
  | question => ['?']
  | colon => [':']
  | comma => [',']
  | dot => ['.']
  | openParen => ['(']
  | closeParen => [')']
  | openBracket => ['[']
  | closeBracket => [']']
  | openBrace => ['\x7b']
  | closeBrace => ['\x7d']

def keywords : List Symbol := [true, false, null, and, or, not, mod]

def pairs : List Symbol := [equal, notEqual, lessEqual, greaterEqual, andAnd, orOr]

def singles : List Symbol :=
  [plus, minus, star, slash, percent, caret, bang, less, greater, question, colon, comma, dot,
    openParen, closeParen, openBracket, closeBracket, openBrace, closeBrace]

/-- The symbol of a list that is spelled so. -/
def withSpelling (symbols : List Symbol) (cs : List Char) : Option Symbol :=
  symbols.find? fun s => s.spelling == cs

theorem spelling_of_withSpelling {symbols : List Symbol} {cs : List Char} {s : Symbol}
    (h : withSpelling symbols cs = some s) : s.spelling = cs := by
  simpa using List.find?_some h

end Symbol
end TemplateBar.Template
