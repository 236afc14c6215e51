import Parley.Toml.Branch
import Parley.Toml.Key
import Parley.Toml.Moment
import Parley.Toml.Numeral

namespace Parley.Toml

def word? (word : String) (v : Value) (cs : List Char) : Option (Value × List Char) :=
  if word.toList.isPrefixOf cs then some (v, cs.drop word.length) else none

-- A value that has no parts.
def readSimple (cs : List Char) : Option (Value × List Char) :=
  match cs with
  | [] => none
  | c :: _ =>
    if c = '"' ∨ c = '\x27' then (readString cs).map fun (s, rest) => (.string s, rest)
    else if c = 't' then word? "true" (.bool true) cs
    else if c = 'f' then word? "false" (.bool false) cs
    else
      (Moment.skip cs).map (Value.moment, ·) <|>
        (readFloat cs).map (fun (x, rest) => (.float x, rest)) <|>
        (readInteger cs).map fun (i, rest) => (.integer i, rest)

-- The table of some pairs, as they stand between braces.
def tableOf? (pairs : List (Key × Value)) : Option Value := do
  let ms ← pairs.foldlM (fun ms (key, v) => Members.insert key v .header ms) ([] : Members)
  return .table (Branch.values ms)

mutual
-- A value, with at most `depth` arrays and tables within one another.  Fuel three times the length of the
-- text suffices.
def readValue (depth fuel : Nat) (cs : List Char) : Option (Value × List Char) :=
  match fuel with
  | 0 => none
  | fuel + 1 =>
    match cs with
    | '[' :: cs =>
      if depth = 0 then none
      else (readItems (depth - 1) fuel cs).map fun (vs, rest) => (.array vs, rest)
    | '\x7b' :: cs =>
      if depth = 0 then none
      else do
        let (pairs, rest) ←
          match skipSpace cs with
          | '\x7d' :: rest => some ([], rest)
          | cs => readPairs (depth - 1) fuel cs
        return (← tableOf? pairs, rest)
    | cs => readSimple cs

-- The items of an array up to its closing bracket.  They may stand on several lines, and the last may have
-- a comma after it.
def readItems (depth fuel : Nat) (cs : List Char) : Option (List Value × List Char) :=
  match fuel with
  | 0 => none
  | fuel + 1 => do
    match ← skipLines cs.length cs with
    | ']' :: rest => return ([], rest)
    | cs =>
      let (v, cs) ← readValue depth fuel cs
      match ← skipLines cs.length cs with
      | ']' :: rest => return ([v], rest)
      | ',' :: cs =>
        let (vs, rest) ← readItems depth fuel cs
        return (v :: vs, rest)
      | _ => none

-- The pairs between braces up to the closing one, all on one line.
def readPairs (depth fuel : Nat) (cs : List Char) : Option (List (Key × Value) × List Char) :=
  match fuel with
  | 0 => none
  | fuel + 1 => do
    let (key, cs) ← readKey cs
    match cs with
    | '=' :: cs =>
      let (v, cs) ← readValue depth fuel (skipSpace cs)
      match skipSpace cs with
      | '\x7d' :: rest => return ([(key, v)], rest)
      | ',' :: cs =>
        let (pairs, rest) ← readPairs depth fuel cs
        return ((key, v) :: pairs, rest)
      | _ => none
    | _ => none
end

-- The most arrays and tables that may stand within one another.
def depthLimit : Nat := 79

end Parley.Toml
