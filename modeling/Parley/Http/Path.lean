namespace Parley.Http

-- Paths with blanks: `:name` stands for one segment or the rest of one, and `*name` for all that is left.  Beside
-- such a pattern there may be fixed paths, which come first.
inductive Piece where
  | text (c : Char)
  -- All up to the next slash, or at least one character up to the end.
  | segment
  -- At least one character, up to the end.
  | rest
deriving DecidableEq, Repr

abbrev Pattern := List Piece

namespace Pattern

-- A name of a blank ends at the next slash.
def isNameChar (c : Char) : Bool := c ≠ '/'

-- The pattern that a text describes; none if a blank has no name, if there are two in one segment, or if
-- something comes after the blank for the rest.
def read? (slash : Bool) (cs : List Char) (fuel : Nat) : Option Pattern :=
  match fuel, cs with
  | _, [] => some []
  | 0, _ => none
  | fuel + 1, ':' :: cs => do
    let name := cs.takeWhile isNameChar
    if name = [] ∨ ':' ∈ name ∨ '*' ∈ name then none
    else return .segment :: (← read? false (cs.dropWhile isNameChar) fuel)
  | _ + 1, '*' :: cs =>
    if slash ∧ cs ≠ [] ∧ cs.all isNameChar ∧ ':' ∉ cs ∧ '*' ∉ cs then some [.rest] else none
  | fuel + 1, c :: cs => do return .text c :: (← read? (c = '/') cs fuel)

-- A pattern may have this many blanks for segments.
def maxSegments : Nat := 25

-- The pattern of a path, which begins with a slash.
def ofPath? (cs : List Char) : Option Pattern :=
  match cs with
  | '/' :: _ => (read? false cs cs.length).filter fun p => p.count .segment ≤ maxSegments
  | _ => none

-- Whether a path fits the pattern.  Between two slashes a segment may be empty.
def fits : Pattern → List Char → Bool
  | [], cs => cs.isEmpty
  | .text c :: ps, d :: cs => c == d && fits ps cs
  | .text _ :: _, [] => false
  | [.segment], cs => !cs.isEmpty && cs.all isNameChar
  | .segment :: ps, cs => fits ps (cs.dropWhile isNameChar)
  | .rest :: _, cs => !cs.isEmpty

-- The text before the first blank.
def opening : Pattern → List Char
  | .text c :: ps => c :: opening ps
  | _ => []

-- Whether a path is lost between a pattern and a fixed path that begins like it: what it has beyond the
-- fixed path, or beyond the place where the two part, is a slash and nothing else.
def loses (p : Pattern) (fixed path : List Char) : Bool :=
  let next := fixed.drop p.opening.length
  p.opening.isPrefixOf fixed && !next.isEmpty &&
    (path == fixed ++ ['/'] || (next.head? == some '/' && path == p.opening ++ ['/']))

end Pattern
end Parley.Http
