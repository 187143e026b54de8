import TemplateBar.CommandLine.Arguments
import TemplateBar.Config.File
import TemplateBar.Json.Text
import TemplateBar.Toolbar.Basic

/-!
# Running a command

Every command works on a bar of its own: `render` prints what the items show, `click` clicks one
item and prints the panel that this opens, and `eval` prints the tokens of one template. There is
no host behind the command line, so queries go unanswered.
-/
namespace TemplateBar.CommandLine

open Template (EvalError Value)

/-! ## Failures -/

inductive Failure where
  | bar (cause : BarError)
  | template (cause : EvalError)
  | unknownItem (id : String)
  | noIcons
  deriving DecidableEq, Repr

/-- A name with fields behind it. -/
def record (name : String) (fields : List (String × String)) : String :=
  name ++ " \x7b " ++ ", ".intercalate (fields.map fun f => f.1 ++ ": " ++ f.2) ++ " \x7d"

/-- A name with one part behind it. -/
def tagged (name part : String) : String := name ++ "(" ++ part ++ ")"

def natText (n : Nat) : String := String.ofList (Decimal.digitsOfNat n)

def evalErrorDetail : EvalError → String
  | .syntaxError offset cause =>
    record "Syntax" [("offset", natText offset), ("message", Text.quote cause.message)]
  | .undefinedName name => tagged "UndefinedVariable" (Text.quote name)
  | .typeError cause => tagged "Type" (Text.quote cause.message)
  | .notCallable kind => tagged "NotCallable" (Text.quote kind)
  | .badArguments function cause =>
    record "InvalidArguments"
      [("function", Text.quote function), ("message", Text.quote cause.message)]
  | .stepLimit n => tagged "StepLimitExceeded" (natText n)
  | .depthLimit n => tagged "DepthLimitExceeded" (natText n)

def barErrorDetail : BarError → String
  | .config cause => tagged "Config" (Text.quote cause.message)
  | .io text => tagged "Io" (Text.quote text)
  | .serialization text => tagged "Serialization" (Text.quote text)
  | .template text => tagged "Template" (Text.quote text)
  | .lifecycle cause => tagged "Lifecycle" (Text.quote cause.message)
  | .action text => tagged "Action" (Text.quote text)

/-- A failure with its parts. -/
def Failure.detail : Failure → String
  | bar cause => barErrorDetail cause
  | template cause => evalErrorDetail cause
  | unknownItem id => Text.quote ("unknown item: " ++ id)
  | noIcons => Text.quote "icon catalog unavailable after mount"

/-! ## Commands -/

def variableValues (vars : List Variable) : Dict ItemValue :=
  Dict.ofList (vars.map fun v => (v.key, Value.ofJson v.value))

/-- A host that answers no query. -/
def silentHost : Host := ⟨none, none, []⟩

def prettyLine (j : Json) : String := j.prettyText ++ "\n"

/-- The bar of a configuration with all items mounted, and the tasks that this leaves. -/
def mountedToolbar (config : BarConfig) (environment : Dict String) :
    Except Failure (Toolbar × List HostTask) :=
  match Toolbar.ofConfig config true with
  | .error e => .error (.bar e)
  | .ok bar =>
    match bar.mountAll environment with
    | (_, .error e, _) => .error (.bar e)
    | (bar, .ok (), tasks) => .ok (bar, tasks)

/-- Hand the window and the variables to every item. -/
def render (bar : Toolbar) (input : RenderInput) : Toolbar × List ItemView :=
  (bar.apply (.focusChanged input.window)).1.apply (.varsChanged (variableValues input.vars))

def viewLine (v : ItemView) : String :=
  v.id ++ ": " ++ Node.plainText v.content ++
    (match v.tooltip with
      | some nodes => " (" ++ Node.plainText nodes ++ ")"
      | none => "") ++ "\n"

def renderOutput (config : BarConfig) (environment : Dict String) (asJson : Bool)
    (input : RenderInput) : Except Failure String := do
  let (bar, _) ← mountedToolbar config environment
  let (_, views) := render bar input
  return if asJson then prettyLine (.array (views.map ItemView.toJson))
    else String.join (views.map viewLine)

def clickOutput (config : BarConfig) (environment : Dict String) (id : String)
    (input : RenderInput) : Except Failure String := do
  let (bar, queries) ← mountedToolbar config environment
  let (bar, _) := render bar input
  match bar.click id with
  | (_, none) => .error (.unknownItem id)
  | (bar, some calls) =>
    let (bar, _) := bar.runTasks silentHost (queries ++ calls)
    let panel := ((bar.get? id).bind BarItem.settings?).bind SettingsItem.panel
    return match panel with
      | some p => prettyLine p.toJson
      | none => ""

/-- The tokens of a template on the scope of an item that was just mounted. -/
def evalTokens (config : BarConfig) (environment : Dict String) (source : String)
    (vars : List Variable) : Except Failure (List Token) :=
  match CompiledTemplate.compile source config.limits.maxDepth with
  | .error e => .error (.template e)
  | .ok template =>
    let context : ItemContext := ⟨config.translations, config.limits, none, true⟩
    let definition : ModuleDefinition := { id := "eval", template := source }
    let (item, _) := Item.create definition context (.empty config.limits.maxDepth)
    match item.mount (IconCatalog.ofConfig config.icons).snapshot.1 environment with
    | (_, .error e) => .error (.bar e)
    | (item, .ok ()) =>
      let (item, _) := item.apply (.varsChanged (variableValues vars))
      match template.evaluate item.scope config.limits with
      | .error e => .error (.template e)
      | .ok value =>
        match item.icons with
        | none => .error .noIcons
        | some icons => .ok (icons.split value)

/-- What a command prints. -/
def Command.output (config : BarConfig) (environment : Dict String) :
    Command → Except Failure String
  | render asJson input => renderOutput config environment asJson input
  | click id input => clickOutput config environment id input
  | eval source vars => do
    return prettyLine (.array ((← evalTokens config environment source vars).map Token.toJson))

/-! ## The program -/

structure Outcome where
  exitCode : Nat
  output : String
  errors : String
  deriving DecidableEq, Repr

/-- Help and version are answers; any other failure of usage has a code of its own. -/
def UsageError.outcome (e : UsageError) : Outcome :=
  if e.isAnswer then ⟨0, e.message, ""⟩ else ⟨2, "", e.message⟩

/-- Run a command on the configuration file, whose bytes are given if it can be read. -/
def Invocation.outcome (i : Invocation) (file : Option ByteArray) (environment : Dict String) :
    Outcome :=
  match i.command.output (BarConfig.loadOrDefault file) environment with
  | .ok text => ⟨0, text, ""⟩
  | .error e => ⟨1, "", "Error: " ++ e.detail ++ "\n"⟩

end TemplateBar.CommandLine
