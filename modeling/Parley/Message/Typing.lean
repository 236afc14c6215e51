import Parley.Json.Decoding
import Parley.Text.Blank

namespace Parley

-- Whether a user has begun or has stopped typing.
inductive Typing where
  | start
  | stop
deriving DecidableEq, Repr

namespace Typing

def name : Typing → String
  | start => "start"
  | stop => "stop"

-- The word "stop" in any case says that the user has stopped; anything else, or nothing, that the
-- user types.
def ofContent (content : Option String) : Typing :=
  match content with
  | some s => if Text.SameLetters s "stop" then stop else start
  | none => start

def text (t : Typing) : String := String.ofList (Json.stringText t.name)

def shape : Json.Shape Typing := Json.Shape.choice [("start", start), ("stop", stop)]

def ofText (s : String) : Json.Reading Typing := Json.read shape s.toList

end Typing
end Parley
