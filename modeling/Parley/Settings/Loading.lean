import Parley.Settings.Override
import Parley.Toml.Document

namespace Parley.Settings

open Json (Outline Items Members Number)

-- Why there are no settings.
inductive LoadError where
  -- The file is not there.
  | unreadable
  -- The file does not describe settings.
  | unparsable
  -- A number is too large to be overridden.
  | unrepresentable
  -- A variable does not fit what it would replace.
  | override
  -- A variable names a place that no list has.
  | noPlace
deriving DecidableEq, Repr

def LoadError.message : LoadError → String
  | unreadable => "Failed to read config file"
  | unparsable => "Failed to parse config file"
  | unrepresentable => "Failed to serialize config"
  | override => "Invalid config override"
  | noPlace => "No such place in a list"

mutual
-- The outline of a TOML value.  A date is a table whose only member nobody knows.
def outline : Toml.Value → Outline
  | .string s => .string (.ofChars s.toList)
  | .integer i => .number (if h : Json.Fits i then some (.whole i h) else none)
  | .float x => .number (some (.double x))
  | .bool b => .bool b
  | .moment => .object (.cons (.string (.ofChars ['$'])) .null .closed)
  | .array vs => .array (outlineItems vs)
  | .table ms => .object (outlineMembers ms)

def outlineItems : List Toml.Value → Items
  | [] => .closed
  | v :: vs => .cons (outline v) (outlineItems vs)

def outlineMembers : List (String × Toml.Value) → Members
  | [] => .closed
  | (name, v) :: ms => .cons (.string (.ofChars name.toList)) (outline v) (outlineMembers ms)
end

-- Tables may be written as arrays, and nobody counts the items that are too many.
def fileContext : Json.Context := ⟨128, true⟩

-- The settings that a TOML text describes; what it leaves out has a default.
def ofToml (env : Environment) (text : String) : Except LoadError Settings :=
  match Toml.read text.toList with
  | none => .error .unparsable
  | some ms =>
    match (record env).shape fileContext (.object (outlineMembers ms)) with
    | .ok s => .ok s
    | .error _ => .error .unparsable

-- The settings of a file, given by its text if it is there.
def ofFile (env : Environment) : Option String → Except LoadError Settings
  | none => .error .unreadable
  | some text => ofToml env text

-- The settings with the overrides of the environment.
def withOverrides (env : Environment) (s : Settings) : Except LoadError Settings :=
  if !s.fitSigned then .error .unrepresentable
  else
    match (Draft.ofSettings s).override? (overrides env) with
    | none => .error .noPlace
    | some d =>
      match d.settings? (default env) with
      | some s => .ok s
      | none => .error .override

-- The settings of the first file that is there, or the defaults, with the overrides of the environment.
def load (env : Environment) (files : List (Option String)) : Except LoadError Settings := do
  let s ←
    match files.findSome? id with
    | some text => ofToml env text
    | none => .ok (default env)
  s.withOverrides env

end Parley.Settings
