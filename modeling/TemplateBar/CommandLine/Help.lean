import TemplateBar.CommandLine.Flag

/-!
# Help texts

What the program says about itself when it is asked for help or for its version.
-/
namespace TemplateBar.CommandLine

def programName : String := "ftbar"

/-- The line that a version request prints. -/
def versionLine : String := programName ++ " 0.1.0\n"

inductive HelpTopic where
  | program
  | command (name : CommandName)
  | help
  deriving DecidableEq, Repr

namespace HelpTopic

/-- The topic that words behind the help command name, if there is one. -/
def ofWords? : List String → Option HelpTopic
  | [] => some program
  | [word] => if word = "help" then some help else (CommandName.ofText? word).map command
  | _ => none

def about : HelpTopic → String
  | program => "ftbar - templated toolbar items rendered from a TOML configuration"
  | command .render => "Mount every configured item and print what it renders"
  | command .click => "Click an item and wait for the host calls it triggers"
  | command .eval => "Evaluate a single template and print its tokens"
  | help => "Print this message or the help of the given subcommand(s)"

def usage : HelpTopic → String
  | program => "ftbar [OPTIONS] <COMMAND>"
  | command .render => "ftbar render [OPTIONS]"
  | command .click => "ftbar click [OPTIONS] <ID>"
  | command .eval => "ftbar eval [OPTIONS] <TEMPLATE>"
  | help => "ftbar help [COMMAND]..."

end HelpTopic

namespace Flag

/-- The option with a name for its value, behind its short form or the room for one. -/
def column (f : Flag) : String :=
  (match f.short? with
    | some c => "-" ++ c.toString ++ ", --"
    | none => "    --") ++ f.long ++
  match f with
  | config => " <CONFIG>"
  | logLevel => " <LOG_LEVEL>"
  | windowName => " <WINDOW_NAME>"
  | windowTitle => " <WINDOW_TITLE>"
  | var => " <KEY=VALUE>"
  | json | help | version => ""

def about : Flag → String
  | config => "Path to the configuration file"
  | logLevel => "Log level (trace, debug, info, warn, error)"
  | json => "Print the item views as JSON"
  | windowName => "Name of the focused window. Without a name or title no window has focus"
  | windowTitle => "Title of the focused window"
  | var => "Extra scope variable; the value is parsed as JSON, else taken as a string"
  | help => "Print help"
  | version => "Print version"

end Flag

namespace HelpTopic

/-- Names and their descriptions in two columns. -/
def columns (rows : List (String × String)) : List String :=
  let width := (rows.map fun r => r.1.length).foldl max 0
  rows.map fun r => "  " ++ r.1 ++ String.ofList (List.replicate (width - r.1.length) ' ') ++ "  " ++ r.2

/-- Names, each with its description below it. -/
def stacked (rows : List (String × String)) : List String :=
  rows.flatMap fun r => ["  " ++ r.1, "          " ++ r.2]

def flagRows (flags : List Flag) : List (String × String) := flags.map fun f => (f.column, f.about)

def commandRows : List (String × String) :=
  CommandName.all.map (fun c => (c.text, (command c).about)) ++ [("help", help.about)]

def sections : HelpTopic → List (String × List String)
  | program =>
    [("Commands", columns commandRows),
      ("Options", columns (flagRows [.config, .logLevel, .help, .version]))]
  | command .render =>
    [("Options", stacked (flagRows [.config, .json, .logLevel, .windowName, .windowTitle, .var, .help]))]
  | command .click =>
    [("Arguments", columns [("<ID>", "Item id as configured in `[[modules]]`")]),
      ("Options", stacked (flagRows [.config, .windowName, .logLevel, .windowTitle, .var, .help]))]
  | command .eval =>
    [("Arguments", columns [("<TEMPLATE>", "")]),
      ("Options", columns (flagRows [.config, .var, .logLevel, .help]))]
  | help => [("Arguments", columns [("[COMMAND]...", "Print help for the subcommand(s)")])]

def lines (t : HelpTopic) : List String :=
  [t.about, "", "Usage: " ++ t.usage] ++
    t.sections.flatMap fun s => "" :: (s.1 ++ ":") :: s.2

def text (t : HelpTopic) : String := String.join (t.lines.map (· ++ "\n"))

end HelpTopic
end TemplateBar.CommandLine
