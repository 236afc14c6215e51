import Parley.Settings.Loading

namespace Parley

-- What the program is asked to do.
inductive Invocation where
  -- Run with the settings of a file, or of the first file that is found.
  | run (config : Option String)
  | help
  | version
  | misuse
deriving DecidableEq, Repr

namespace Invocation

-- The text after a given beginning.
def after? (beginning s : String) : Option String :=
  if beginning.toList.isPrefixOf s.toList then some (String.ofList (s.toList.drop beginning.length))
  else none

-- Goes through the arguments with what is known of the file so far.
def ofArguments (config : Option String) : List String → Invocation
  | [] => run config
  | arg :: args =>
    if arg = "-h" ∨ arg = "--help" then help
    else if arg = "-V" ∨ arg = "--version" then version
    else if arg = "-c" ∨ arg = "--config" then
      match args with
      | path :: args =>
        if path.startsWith "-" ∨ config.isSome then misuse else ofArguments (some path) args
      | [] => misuse
    else
      match after? "--config=" arg <|> after? "-c=" arg <|> after? "-c" arg with
      | some path => if config.isSome then misuse else ofArguments (some path) args
      | none => misuse

def usage : String := "Usage: chatter [OPTIONS]\n\nOptions:\n  -c, --config <CONFIG>  Configuration file\n  -h, --help             Print help\n  -V, --version          Print version"

end Invocation

namespace Settings

-- The files that are looked for if none is named, in this order.
def searchPaths (home : Option String) : List String :=
  ["chatter.toml", "/etc/chatter/chatter.toml"] ++
    home.toList.map fun h => h ++ "/.config/chatter/chatter.toml"

-- The name of the variable that overrides a setting.
def Setting.variable (x : Setting) : String :=
  String.ofList ("CHATTER".toList ++ x.path.flatMap fun s => "__".toList ++ s.toList.map Char.toUpper)

-- The variables of the environment that matter to settings.
def variableNames : List String :=
  ["CHATTER_HOST", "CHATTER_PORT"] ++ Setting.all.map Setting.variable

end Settings
end Parley
