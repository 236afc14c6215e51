import Parley.Text.Digits

namespace Parley.Toml.Moment

open Text

-- A number of exactly `count` decimal digits from `low` to `high`, and what comes after it.
def readPart (count low high : Nat) (cs : List Char) : Option (Nat × List Char) := do
  let ds ← (cs.take count).mapM digit?
  let n := ofDigits 10 ds
  if ds.length = count ∧ low ≤ n ∧ n ≤ high then some (n, cs.drop count) else none

-- What comes after a certain character.
def after? (c : Char) : List Char → Option (List Char)
  | d :: cs => if c = d then some cs else none
  | [] => none

def IsLeap (year : Nat) : Prop := year % 4 = 0 ∧ (year % 100 ≠ 0 ∨ year % 400 = 0)

instance (year : Nat) : Decidable (IsLeap year) := by unfold IsLeap; infer_instance

def daysIn (year month : Nat) : Nat :=
  if month = 2 then (if IsLeap year then 29 else 28)
  else if month ∈ [4, 6, 9, 11] then 30
  else 31

-- What comes after a date.
def skipDate (cs : List Char) : Option (List Char) := do
  let (year, cs) ← readPart 4 0 9999 cs
  let (month, cs) ← readPart 2 1 12 (← after? '-' cs)
  let (_, cs) ← readPart 2 1 (daysIn year month) (← after? '-' cs)
  return cs

-- What comes after a fraction of a second, if there is one.
def skipFraction (cs : List Char) : List Char :=
  match cs with
  | '.' :: rest =>
    match takeDigits rest with
    | ([], _) => cs
    | (_, rest) => rest
  | cs => cs

-- What comes after a time of day.
def skipTime (cs : List Char) : Option (List Char) := do
  let (_, cs) ← readPart 2 0 23 cs
  let (_, cs) ← readPart 2 0 59 (← after? ':' cs)
  let (_, cs) ← readPart 2 0 60 (← after? ':' cs)
  return skipFraction cs

-- What comes after the distance from universal time, if there is one.
def skipOffset (cs : List Char) : Option (List Char) :=
  match cs with
  | c :: rest =>
    if c = 'Z' ∨ c = 'z' then some rest
    else if c = '+' ∨ c = '-' then do
      let (_, rest) ← readPart 2 0 23 rest
      let (_, rest) ← readPart 2 0 59 (← after? ':' rest)
      return rest
    else some cs
  | [] => some []

-- What comes after the time that may follow a date.
def skipTimeOfDate (cs : List Char) : Option (List Char) :=
  match cs with
  | c :: rest =>
    if c = 'T' ∨ c = 't' ∨ c = ' ' then
      match skipTime rest with
      | some rest => skipOffset rest
      | none => some cs
    else some cs
  | [] => some []

-- What comes after a date, a time of day, or both.
def skip (cs : List Char) : Option (List Char) :=
  (do skipTimeOfDate (← skipDate cs)) <|> skipTime cs

end Parley.Toml.Moment
