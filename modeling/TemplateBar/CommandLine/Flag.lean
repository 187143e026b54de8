/-!
# Commands and options of the command line

Which options there are, how they are spelled, and at which places of the command line each of
them may stand: in front of the command or behind it.
-/
namespace TemplateBar.CommandLine

/-- What the program can be asked to do. -/
inductive CommandName where
  | render | click | eval
  deriving DecidableEq, Repr

namespace CommandName

def text : CommandName → String
  | render => "render"
  | click => "click"
  | eval => "eval"

def all : List CommandName := [render, click, eval]

def ofText? (s : String) : Option CommandName := all.find? (·.text == s)

/-- One argument that is no option belongs to the command. -/
def hasOperand : CommandName → Bool
  | render => false
  | click | eval => true

end CommandName

inductive Flag where
  | config | logLevel | json | windowName | windowTitle | var | help | version
  deriving DecidableEq, Repr

namespace Flag

def long : Flag → String
  | config => "config"
  | logLevel => "log-level"
  | json => "json"
  | windowName => "window-name"
  | windowTitle => "window-title"
  | var => "var"
  | help => "help"
  | version => "version"

def short? : Flag → Option Char
  | config => some 'c'
  | logLevel => some 'l'
  | help => some 'h'
  | version => some 'V'
  | _ => none

def takesValue : Flag → Bool
  | config | logLevel | windowName | windowTitle | var => true
  | json | help | version => false

/-- The options in front of the command, or behind the given one. -/
def allowed : Option CommandName → List Flag
  | none => [config, logLevel, help, version]
  | some .render => [config, logLevel, json, windowName, windowTitle, var, help]
  | some .click => [config, logLevel, windowName, windowTitle, var, help]
  | some .eval => [config, logLevel, var, help]

def ofLong? (place : Option CommandName) (name : String) : Option Flag :=
  (allowed place).find? (·.long == name)

def ofShort? (place : Option CommandName) (c : Char) : Option Flag :=
  (allowed place).find? (·.short? == some c)

end Flag
end TemplateBar.CommandLine
