import TemplateBar.Error

/-!
# Host commands

The six commands that the bar may ask its host to carry out. One of them is a query, whose answer
is read; the others answer nothing.
-/
namespace TemplateBar

inductive HostCommand where
  | showAppSettings | logOut | suspend | restart | shutdown | getMainMonitorBrightness
  deriving DecidableEq, Repr

namespace HostCommand

def all : List HostCommand :=
  [showAppSettings, logOut, suspend, restart, shutdown, getMainMonitorBrightness]

def name : HostCommand → String
  | showAppSettings => "show_app_settings"
  | logOut => "log_out"
  | suspend => "suspend"
  | restart => "restart"
  | shutdown => "shutdown"
  | getMainMonitorBrightness => "get_main_monitor_brightness"

def isQuery (c : HostCommand) : Bool := c = getMainMonitorBrightness

/-- The command of that name. -/
def ofName? (name : String) : Option HostCommand := all.find? fun c => c.name == name

end HostCommand

/-- Why a host call has no answer. -/
inductive ActionError where
  | unknownCommand (name : String)
  | failed (command : HostCommand) (text : String)
  | invalidResponse (command : HostCommand) (text : String)
  | unsupported (command : HostCommand)
  deriving DecidableEq, Repr

def ActionError.message : ActionError → String
  | unknownCommand name => "Unknown host command: " ++ name
  | failed command text => "Host call " ++ command.name ++ " failed: " ++ text
  | invalidResponse command text => "Invalid response from " ++ command.name ++ ": " ++ text
  | unsupported command => "Host command not supported: " ++ command.name

def ActionError.toBarError (e : ActionError) : BarError := .action e.message

end TemplateBar
