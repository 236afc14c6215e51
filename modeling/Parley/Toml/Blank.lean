namespace Parley.Toml

-- A space or a tab.
def IsSpace (c : Char) : Prop := c = ' ' ∨ c = '\t'

instance : DecidablePred IsSpace := fun c => by unfold IsSpace; infer_instance

-- A character that may stand in a comment or in a string: no control character but the tab.
def IsPlain (c : Char) : Prop := c = '\t' ∨ (' ' ≤ c ∧ c ≠ '\x7f')

instance : DecidablePred IsPlain := fun c => by unfold IsPlain; infer_instance

def skipSpace : List Char → List Char
  | [] => []
  | c :: cs => if IsSpace c then skipSpace cs else c :: cs

-- What comes after a line end: a line feed, with or without a carriage return before it.
def lineEnd? : List Char → Option (List Char)
  | '\n' :: cs => some cs
  | '\r' :: '\n' :: cs => some cs
  | _ => none

-- A line may also end where the text ends.
def lineEndOrEnd? : List Char → Option (List Char)
  | [] => some []
  | cs => lineEnd? cs

-- A comment goes on to the end of the line.
def skipComment : List Char → List Char
  | '#' :: cs => cs.dropWhile (IsPlain ·)
  | cs => cs

-- What comes after a line on which nothing more stands but a comment.
def lineRest? (cs : List Char) : Option (List Char) := lineEndOrEnd? (skipComment (skipSpace cs))

-- Passes over spaces, line ends and comments; none if a comment breaks off before its line ends.
def skipLines (fuel : Nat) (cs : List Char) : Option (List Char) :=
  match fuel with
  | 0 => some cs
  | fuel + 1 =>
    match skipSpace cs with
    | [] => some []
    | '#' :: cs => do skipLines fuel (← lineEndOrEnd? (skipComment ('#' :: cs)))
    | cs =>
      match lineEnd? cs with
      | some rest => skipLines fuel rest
      | none => some cs

end Parley.Toml
