import Parley.CommandLine
import Parley.Server.Front
import Parley.Settings.Binding

namespace Parley

-- The text of a file, if it can be read.
def fileText? (path : String) : IO (Option String) := do
  try
    return some (← IO.FS.readFile path)
  catch _ => return none

def environment : IO Environment :=
  Settings.variableNames.filterMapM fun name => do return (← IO.getEnv name).map (name, ·)

def loadSettings (config : Option String) : IO (Except Settings.LoadError Settings) := do
  let env ← environment
  match config with
  | some path =>
    let text ← fileText? path
    return (Settings.ofFile env text).bind (·.withOverrides env)
  | none =>
    let texts ← (Settings.searchPaths (← IO.getEnv "HOME")).mapM fileText?
    return Settings.load env texts

end Parley

open Parley

def main (args : List String) : IO UInt32 := do
  match Invocation.ofArguments none args with
  | .help => IO.println Invocation.usage; return 0
  | .version => IO.println s!"chatter {Server.Front.version}"; return 0
  | .misuse => IO.eprintln Invocation.usage; return 2
  | .run config =>
    match (← loadSettings config).mapError (·.message) >>= Settings.announcement with
    | .ok line => IO.println line; return 0
    | .error message => IO.eprintln s!"Error: {message}"; return 1
