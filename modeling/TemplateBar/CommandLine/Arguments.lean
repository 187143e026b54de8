import TemplateBar.CommandLine.Help
import TemplateBar.CommandLine.Variable
import TemplateBar.Config.Window

/-!
# Reading the command line

A command line is options, a command, and options and at most one other argument for the command.
Options with a value take it from behind an equals sign, from the rest of their own argument, or
from the next argument. Such a value is looked at when the next option or argument of the command
comes, so an argument that cannot be placed at all is reported in front of a value that is wrong.
-/
namespace TemplateBar.CommandLine

inductive UsageError where
  /-- Not a failure: help was asked for. -/
  | help (topic : HelpTopic)
  /-- Not a failure: the version was asked for. -/
  | version
  | nothingGiven
  | missingCommand
  | unknownCommand
  | unknownArgument
  | missingArgument
  | missingValue
  | unwantedValue
  | givenTwice
  | badVariable (cause : VariableError)
  deriving DecidableEq, Repr

namespace UsageError

def message : UsageError → String
  | help topic => topic.text
  | version => versionLine
  | nothingGiven => HelpTopic.program.text
  | missingCommand => "error: a command is required\n"
  | unknownCommand => "error: unrecognized command\n"
  | unknownArgument => "error: unexpected argument\n"
  | missingArgument => "error: a required argument is missing\n"
  | missingValue => "error: an option needs a value\n"
  | unwantedValue => "error: an option takes no value\n"
  | givenTwice => "error: an option cannot be given twice\n"
  | badVariable cause => "error: " ++ cause.message ++ "\n"

/-- The user asked for this text. -/
def isAnswer : UsageError → Bool
  | help _ | version => true
  | _ => false

end UsageError

/-! ## Shapes of arguments -/

inductive Shape where
  /-- Two dashes: no options follow. -/
  | separator
  | long (name : String) (value : Option String)
  | short (letters : List Char)
  | word
  deriving DecidableEq, Repr

def Shape.ofChars : List Char → Shape
  | ['-', '-'] => separator
  | '-' :: '-' :: cs =>
    match Text.cutAt? '=' cs with
    | some (name, value) => long (String.ofList name) (some (String.ofList value))
    | none => long (String.ofList cs) none
  | '-' :: c :: cs => short (c :: cs)
  | _ => word

/-! ## What was given -/

/-- The options and the operand given at one place. -/
structure Given where
  config : Option String := none
  logLevel : Option String := none
  json : Bool := false
  windowName : Option String := none
  windowTitle : Option String := none
  vars : List Variable := []
  operand : Option String := none

/-- An option that is given at most once. -/
def once (before : Option String) (value : String) : Except UsageError (Option String) :=
  if before.isSome then .error .givenTwice else .ok (some value)

namespace Given

/-- Take an option with its value, if it takes one. A path may not be empty. -/
def accept (g : Given) (place : Option CommandName) (flag : Flag) (value : Option String) :
    Except UsageError Given :=
  match flag, value with
  | .help, _ => .error (.help ((place.map .command).getD .program))
  | .version, _ => .error .version
  | .json, _ => if g.json then .error .givenTwice else .ok { g with json := true }
  | _, none => .error .missingValue
  | .config, some v => do
    let config ← once g.config v
    if v.isEmpty then .error .missingValue else .ok { g with config }
  | .logLevel, some v => do return { g with logLevel := ← once g.logLevel v }
  | .windowName, some v => do return { g with windowName := ← once g.windowName v }
  | .windowTitle, some v => do return { g with windowTitle := ← once g.windowTitle v }
  | .var, some v =>
    match Variable.parse v with
    | .ok x => .ok { g with vars := g.vars ++ [x] }
    | .error cause => .error (.badVariable cause)

end Given

/-- How far the arguments of one place have been read. -/
structure Progress where
  given : Given := {}
  /-- The last option, while its value is to come or to be looked at. -/
  pending : Option (Flag × Option String) := none
  operandsOnly : Bool := false

namespace Progress

/-- Look at the value of the last option. -/
def settle (p : Progress) (place : Option CommandName) : Except UsageError Progress :=
  match p.pending with
  | none => .ok p
  | some (flag, value) => do
    return { p with given := ← p.given.accept place flag value, pending := none }

/-- Take an option that is complete. -/
def accept (p : Progress) (place : Option CommandName) (flag : Flag) (value : Option String) :
    Except UsageError Progress := do
  let p ← p.settle place
  return { p with given := ← p.given.accept place flag value }

/-- Take an option whose value is the next argument. -/
def await (p : Progress) (place : Option CommandName) (flag : Flag) :
    Except UsageError Progress := do
  return { ← p.settle place with pending := some (flag, none) }

def takeLong (p : Progress) (place : Option CommandName) (name : String) (value : Option String) :
    Except UsageError Progress :=
  match Flag.ofLong? place name with
  | none => .error .unknownArgument
  | some flag =>
    match flag.takesValue, value with
    | true, none => p.await place flag
    | false, some _ => .error .unwantedValue
    | _, value => p.accept place flag value

/-- Short options in one argument; the first one that takes a value takes the rest. -/
def takeShort (place : Option CommandName) : Progress → List Char → Except UsageError Progress
  | p, [] => .ok p
  | p, c :: cs =>
    match Flag.ofShort? place c with
    | none => .error .unknownArgument
    | some flag =>
      if flag.takesValue then
        match cs with
        | [] => p.await place flag
        | '=' :: value => p.accept place flag (some (String.ofList value))
        | value => p.accept place flag (some (String.ofList value))
      else do takeShort place (← p.accept place flag none) cs

/-- Take an argument that is no option. -/
def takeOperand (p : Progress) (place : Option CommandName) (arg : String) :
    Except UsageError Progress :=
  match place with
  | none =>
    if p.operandsOnly ∧ (arg = "help" ∨ (CommandName.ofText? arg).isSome) then
      .error .unknownArgument
    else .error .unknownCommand
  | some command =>
    if command.hasOperand ∧ p.given.operand = none then do
      let p ← p.settle place
      return { p with given := { p.given with operand := some arg } }
    else .error .unknownArgument

/-- The value of the last option is yet to come. -/
def awaitsValue (p : Progress) : Bool := p.pending.any (·.2.isNone)

/-- Take one argument that is no command. -/
def take (p : Progress) (place : Option CommandName) (arg : String) :
    Except UsageError Progress :=
  if p.operandsOnly then p.takeOperand place arg
  else
    match Shape.ofChars arg.toList with
    | .separator => .ok { p with operandsOnly := true }
    | .long name value => p.takeLong place name value
    | .short letters => p.takeShort place letters
    | .word =>
      match p.pending with
      | some (flag, none) => .ok { p with pending := some (flag, some arg) }
      | _ => p.takeOperand place arg

end Progress

/-! ## The whole line -/

/-- The arguments behind a command. -/
def readCommand (command : CommandName) (args : List String) : Except UsageError Given := do
  let p ← args.foldlM (fun p arg => Progress.take p (some command) arg) {}
  let p ← p.settle (some command)
  if command.hasOperand ∧ p.given.operand = none then .error .missingArgument else .ok p.given

/-- The arguments in front of the command, the command and the arguments behind it. -/
def readLine : Progress → List String → Except UsageError (Given × CommandName × Given)
  | p, [] => do
    let g := (← p.settle none).given
    if g.config = none ∧ g.logLevel = none then .error .nothingGiven else .error .missingCommand
  | p, arg :: args =>
    let isCommandPlace := !p.operandsOnly && !p.awaitsValue
    if isCommandPlace && arg == "help" then
      match HelpTopic.ofWords? args with
      | some topic => .error (.help topic)
      | none => .error .unknownCommand
    else
      match if isCommandPlace then CommandName.ofText? arg else none with
      | some command => do
        let behind ← readCommand command args
        let p ← p.settle none
        return (p.given, command, behind)
      | none => do readLine (← p.take none arg) args

structure RenderInput where
  /-- The window that has the focus, if one has it. -/
  window : Option WindowSnapshot
  vars : List Variable

inductive Command where
  | render (asJson : Bool) (input : RenderInput)
  | click (id : String) (input : RenderInput)
  | eval (template : String) (vars : List Variable)

/-- A name or a title makes a window; what is not given is empty. -/
def Given.window (g : Given) : Option WindowSnapshot :=
  if g.windowName = none ∧ g.windowTitle = none then none
  else some { name := g.windowName.getD "", title := g.windowTitle.getD "" }

def Given.input (g : Given) : RenderInput := ⟨g.window, g.vars⟩

def Command.ofGiven (name : CommandName) (g : Given) : Command :=
  match name with
  | .render => render g.json g.input
  | .click => click (g.operand.getD "") g.input
  | .eval => eval (g.operand.getD "") g.vars

/-- What the program was asked to do. -/
structure Invocation where
  config : Option String
  logLevel : Option String
  command : Command

namespace Invocation

/-- Options that may stand on both sides of the command count behind it. -/
def parse (args : List String) : Except UsageError Invocation := do
  let (front, name, behind) ← readLine {} args
  return {
    config := behind.config.or front.config
    logLevel := behind.logLevel.or front.logLevel
    command := .ofGiven name behind }

/-- A path below a directory. -/
def joinPath (directory path : String) : String :=
  if directory.isEmpty ∨ directory.toList.getLast? = some '/' then directory ++ path
  else directory ++ "/" ++ path

/-- The configuration file: the one given, else the one that the environment names, else the one
in the home directory. -/
def configPath (i : Invocation) (environment : Dict String) : String :=
  match i.config, Dict.get? environment "FTBAR_CONFIG", Dict.get? environment "HOME" with
  | some path, _, _ => path
  | none, some path, _ => path
  | none, none, some home => joinPath home ".ftbar/config.toml"
  | none, none, none => "config.toml"

/-- The log level: the one given, else the configured one unless it is blank. -/
def resolveLogLevel (i : Invocation) (configured : String) : String :=
  match i.logLevel with
  | some level => level
  | none => if Text.isAllBlank configured then "info" else configured

end Invocation
end TemplateBar.CommandLine
