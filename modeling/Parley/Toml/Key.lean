import Parley.Toml.Quoted

namespace Parley.Toml

-- A character of a bare name.
def IsBare (c : Char) : Prop := c.isAlphanum ∨ c = '_' ∨ c = '-'

instance : DecidablePred IsBare := fun c => by unfold IsBare; infer_instance

abbrev Key := List String

-- One name.  A quoted one stands on one line.
def readName (cs : List Char) : Option (String × List Char) :=
  match cs with
  | '"' :: cs => (readBasic (cs.length + 1) cs).map fun (s, rest) => (String.ofList s, rest)
  | '\x27' :: cs => (readLiteral cs).map fun (s, rest) => (String.ofList s, rest)
  | cs =>
    match cs.takeWhile (IsBare ·) with
    | [] => none
    | s => some (String.ofList s, cs.dropWhile (IsBare ·))

-- The most names that a key may have.
def keyLimit : Nat := 79

-- A name and all that follow it after points; spaces may stand around each.
def readNames (fuel : Nat) (cs : List Char) : Option (Key × List Char) :=
  match fuel with
  | 0 => none
  | fuel + 1 => do
    let (name, cs) ← readName (skipSpace cs)
    match skipSpace cs with
    | '.' :: cs =>
      let (names, cs) ← readNames fuel cs
      return (name :: names, cs)
    | cs => return ([name], cs)

def readKey (cs : List Char) : Option (Key × List Char) := readNames keyLimit cs

end Parley.Toml
