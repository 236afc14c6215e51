import Parley.Toml.Reading

namespace Parley.Toml

inductive Statement where
  | pair (key : Key) (v : Value)
  -- What follows belongs to the table of this key.
  | header (key : Key)
  -- What follows belongs to one more table of this key.
  | itemHeader (key : Key)
deriving Repr

namespace Statement

-- The statement at the front of a text, and the lines after it.
def read (cs : List Char) : Option (Statement × List Char) := do
  match cs with
  | '[' :: '[' :: cs =>
    match ← readKey cs with
    | (key, ']' :: ']' :: cs) => return (.itemHeader key, ← lineRest? cs)
    | _ => none
  | '[' :: cs =>
    match ← readKey cs with
    | (key, ']' :: cs) => return (.header key, ← lineRest? cs)
    | _ => none
  | cs =>
    match ← readKey cs with
    | (key, '=' :: cs) =>
      let (v, cs) ← readValue depthLimit (3 * cs.length + 3) (skipSpace cs)
      return (.pair key v, ← lineRest? cs)
    | _ => none

-- All statements of a text.
def readAll (fuel : Nat) (cs : List Char) : Option (List Statement) :=
  match fuel with
  | 0 => none
  | fuel + 1 => do
    match ← skipLines cs.length cs with
    | [] => return []
    | cs =>
      let (s, cs) ← read cs
      return s :: (← readAll fuel cs)

end Statement

-- A document up to some statement: all its tables, and the one that pairs go to.
structure Draft where
  root : Members
  current : Key

namespace Draft

def add (d : Draft) : Statement → Option Draft
  | .pair key v => do
    return { d with root := ← Members.changeAt false (Members.insert key v) d.current .header d.root }
  | .header key => do return ⟨← d.root.openTable key, key⟩
  | .itemHeader key => do return ⟨← d.root.openItem key, key⟩

end Draft

-- The members of the table that a text describes.  A byte order mark at its front is passed over.
def read (cs : List Char) : Option (List (String × Value)) := do
  let cs := match cs with
    | '\ufeff' :: cs => cs
    | cs => cs
  let statements ← Statement.readAll (cs.length + 1) cs
  let d ← statements.foldlM Draft.add ⟨[], []⟩
  return Branch.values d.root

end Parley.Toml
