import Parley.Settings.Draft

namespace Parley.Settings

namespace Step

def IsNameChar (c : Char) : Prop := c.isAlphanum ∨ c = '_' ∨ c = '-' ∨ c = ' '

instance : DecidablePred IsNameChar := fun c => by unfold IsNameChar; infer_instance

def name? (cs : List Char) : Option (Step × List Char) :=
  match cs.takeWhile (IsNameChar ·) with
  | [] => none
  | s => some (.name (String.ofList s), cs.dropWhile (IsNameChar ·))

-- A name after a point.
def child? : List Char → Option (Step × List Char)
  | '.' :: cs => name? cs
  | _ => none

def skipSpaces (cs : List Char) : List Char := cs.dropWhile fun c => c = ' ' ∨ c = '\t'

-- A whole number that fits in 64 bits with its sign, at the front of a text.
def number? (cs : List Char) : Option (Int × List Char) :=
  let (negative, cs) := match cs with
    | '-' :: cs => (true, cs)
    | cs => (false, cs)
  match Text.takeDigits cs with
  | ([], _) => none
  | (ds, rest) =>
    let n := Text.ofDigits 10 ds
    if negative then if n ≤ 0x8000000000000000 then some (-n, rest) else none
    else if n < 0x8000000000000000 then some (n, rest)
    else none

-- An index in brackets.
def index? : List Char → Option (Step × List Char)
  | '[' :: cs => do
    let (i, cs) ← number? (skipSpaces cs)
    match skipSpaces cs with
    | ']' :: cs => return (.index i, cs)
    | _ => none
  | _ => none

-- The steps after the first; fuel as long as the text suffices.
def more? (fuel : Nat) (cs : List Char) : Option (List Step) :=
  match fuel, cs with
  | _, [] => some []
  | 0, _ => none
  | fuel + 1, cs => do
    let (step, cs) ← child? cs <|> index? cs
    return step :: (← more? fuel cs)

-- The way that a text describes.
def way? (cs : List Char) : Option (List Step) := do
  let (step, rest) ← name? cs
  return step :: (← more? rest.length rest)

end Step

-- The lower case of a letter.  The sign for kelvin is a letter K.
def lower (c : Char) : Char := if c = '\u212a' then 'k' else c.toLower

-- Two lines in a row stand for a point.
def pointed : List Char → List Char
  | '_' :: '_' :: cs => '.' :: pointed cs
  | c :: cs => c :: pointed cs
  | [] => []

-- What comes before the way in the name of a variable.
def mark : List Char := "chatter__".toList

-- The way that the name of a variable describes, if it is an override at all.
def wayOfVariable? (name : String) : Option (List Step) :=
  let cs := name.toList.map lower
  if mark.isPrefixOf cs then Step.way? (pointed (cs.drop mark.length)) else none

-- Where a scalar is to be put.
abbrev Override := List Step × Scalar

-- The overrides that an environment holds.
def overrides (env : Environment) : List Override :=
  env.filterMap fun (name, value) => (wayOfVariable? name).map (·, Scalar.ofText value)

-- The draft after some overrides; none if one of them has no place.
def Draft.override? (d : Draft) (os : List Override) : Option Draft :=
  os.foldlM (fun d (way, v) => Draft.put (.scalar v) way d) d

end Parley.Settings
