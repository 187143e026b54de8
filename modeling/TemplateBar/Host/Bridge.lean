import TemplateBar.Host.Command
import TemplateBar.Host.Brightness

/-!
# Hosts

A host answers commands. The recording host keeps every call and answers brightness queries from a
fixed value; a script laid over it can make calls fail or put another answer to the queries. The
host behind the command line answers no query and does nothing else.
-/
namespace TemplateBar

/-- A call as the host sees it. -/
structure HostCall where
  command : HostCommand
  args : Json
  deriving Repr

/-- What a host does after recording a call. -/
inductive HostScript where
  | failing (text : String)
  | responding (answer : Json)
  deriving Repr

structure Host where
  brightness : Option Brightness
  script : Option HostScript
  /-- The calls so far, in order. -/
  calls : List HostCall
  deriving Repr

namespace Host

/-- The answer of the recording host on its own. -/
def recordedAnswer (h : Host) (command : HostCommand) : Except ActionError Json :=
  if command.isQuery then
    match h.brightness with
    | some b => .ok b.toJson
    | none => .error (.unsupported command)
  else .ok .null

def answer (h : Host) (command : HostCommand) : Except ActionError Json :=
  match h.script with
  | some (.failing text) => .error (.failed command text)
  | some (.responding j) => if command.isQuery then .ok j else h.recordedAnswer command
  | none => h.recordedAnswer command

/-- Record a call and answer it. -/
def invoke (h : Host) (call : HostCall) : Except ActionError Json × Host :=
  (h.answer call.command, { h with calls := h.calls ++ [call] })

/-- The call that asks for the brightness. -/
def brightnessQuery : HostCall := ⟨.getMainMonitorBrightness, .null⟩

/-- The brightness in the host's answer. -/
def readBrightness : Except ActionError Json → Except ActionError Brightness
  | .error e => .error e
  | .ok j =>
    match Brightness.ofJson? j with
    | some b => .ok b
    | none => .error (.invalidResponse .getMainMonitorBrightness "no brightness")

def fetchBrightness (h : Host) : Except ActionError Brightness × Host :=
  ((readBrightness (h.invoke brightnessQuery).1), (h.invoke brightnessQuery).2)

/-- The answer of the host behind the command line. -/
def loggingAnswer (command : HostCommand) : Except ActionError Json :=
  if command.isQuery then .error (.unsupported command) else .ok .null

end Host
end TemplateBar
