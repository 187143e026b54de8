import TemplateBar.CommandLine.Environment
import TemplateBar.CommandLine.Run

/-!
# The program

Reads the environment and the configuration file, runs the command and prints what it gives.
-/
namespace TemplateBar.CommandLine

/-- The bytes of a file, if it can be read. -/
def readBytes? (path : String) : IO (Option ByteArray) := do
  try
    return some (← IO.FS.readBinFile path)
  catch _ => return none

/-- The environment as the system lists it. -/
def readEnvironment : IO (Dict String) := do
  let text := (← readBytes? "/proc/self/environ").bind String.fromUTF8?
  return (text.map environmentOfText).getD []

end TemplateBar.CommandLine

open TemplateBar.CommandLine in
def main (args : List String) : IO UInt32 := do
  let environment ← readEnvironment
  let outcome ←
    match Invocation.parse args with
    | .error e => pure e.outcome
    | .ok invocation => do
      let file ← readBytes? (invocation.configPath environment)
      pure (invocation.outcome file environment)
  (← IO.getStdout).putStr outcome.output
  (← IO.getStderr).putStr outcome.errors
  return UInt32.ofNat outcome.exitCode
