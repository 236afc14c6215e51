import Parley.Decimal.Double

namespace Parley.Toml

open Decimal (Double)

inductive Value where
  | string (s : String)
  | integer (i : Int)
  | float (x : Double)
  | bool (b : Bool)
  -- A date, a time of day, or both.
  | moment
  | array (items : List Value)
  -- Every name stands once.
  | table (members : List (String × Value))
deriving Repr, Inhabited

inductive Origin where
  | header
  -- The header of a table within it.
  | above
  -- A key with points.
  | points
deriving DecidableEq, Repr

inductive Branch where
  | leaf (v : Value)
  | table (origin : Origin) (members : List (String × Branch))
  -- Tables under one name, of which the last is still open.
  | tables (items : List (List (String × Branch)))

abbrev Members := List (String × Branch)

namespace Members

-- The members with one put in the place of another of its name.
def replace (ms : Members) (name : String) (b : Branch) : Members :=
  ms.map fun (k, x) => if k = name then (k, b) else (k, x)

-- Changes the table that is found by following some names; a table that is not there is opened.  Keys with
-- points do not go through a table that has a header of its own.
def changeAt (points : Bool) (change : Origin → Members → Option Members) :
    List String → Origin → Members → Option Members
  | [], origin, ms => change origin ms
  | name :: names, _, ms =>
    match ms.lookup name with
    | none => do
      let origin := if points then .points else .above
      return ms ++ [(name, .table origin (← changeAt points change names origin []))]
    | some (.leaf _) => none
    | some (.tables items) => do
      let last ← items.getLast?
      let last ← changeAt points change names .header last
      return ms.replace name (.tables (items.dropLast ++ [last]))
    | some (.table origin inner) =>
      if points ∧ origin = .header then none
      else do return ms.replace name (.table origin (← changeAt points change names origin inner))

-- Adds a value under a key.  All but the last name lead to a table that keys with points have opened.
def insert (key : List String) (v : Value) (origin : Origin) (ms : Members) : Option Members :=
  match key.getLast? with
  | none => none
  | some name =>
    changeAt true (fun found ms =>
      if (key.length ≠ 1 ∧ found ≠ .points) ∨ (ms.lookup name).isSome then none
      else some (ms ++ [(name, .leaf v)])) key.dropLast origin ms

-- Opens the table of a header.
def openTable (key : List String) (ms : Members) : Option Members :=
  match key.getLast? with
  | none => none
  | some name =>
    changeAt false (fun _ ms =>
      match ms.lookup name with
      | none => some (ms ++ [(name, .table .header [])])
      | some (.table .above inner) => some (ms.replace name (.table .header inner))
      | some _ => none) key.dropLast .header ms

-- Opens one more table under the name of a header.
def openItem (key : List String) (ms : Members) : Option Members :=
  match key.getLast? with
  | none => none
  | some name =>
    changeAt false (fun _ ms =>
      match ms.lookup name with
      | none => some (ms ++ [(name, .tables [[]])])
      | some (.tables items) => some (ms.replace name (.tables (items ++ [[]])))
      | some _ => none) key.dropLast .header ms

end Members

mutual
def Branch.value : Branch → Value
  | .leaf v => v
  | .table _ ms => .table (Branch.values ms)
  | .tables items => .array (Branch.tableValues items)

def Branch.values : List (String × Branch) → List (String × Value)
  | [] => []
  | (name, b) :: ms => (name, b.value) :: Branch.values ms

def Branch.tableValues : List (List (String × Branch)) → List Value
  | [] => []
  | ms :: items => .table (Branch.values ms) :: Branch.tableValues items
end

end Parley.Toml
