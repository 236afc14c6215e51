import Parley.Http.Message
import Parley.Text.Digits

namespace Parley.Http.Framing

-- A request may have this many header fields.
def maxFields : Nat := 100

-- A body may have this many octets.
def maxLength : Nat := 0xFFFFFFFFFFFFFFFD

-- The number of octets that a field announces: decimal digits, and nothing else.
def length? (value : List UInt8) : Option Nat :=
  (Text.readDecimal (value.map fun b => Char.ofNat b.toNat)).filter (· < 0x10000000000000000)

-- The last of the codings that a field lists.
def lastCoding (value : List Char) : List Char := (value.reverse.takeWhile (· ≠ ',')).reverse

-- Whether the body comes in chunks, and so tells itself where it ends.
def isChunked (h : Header) : Bool :=
  h.text?.any fun s => Text.SameLetters (String.ofList (Text.trim (lastCoding s.toList))) "chunked"

-- The status of the response to a request whose body has no certain end; `chunked` is what the last coding
-- so far says, and `length` what the lengths so far say.  A coding makes every later length void.
def bodyFault? (chunked : Option Bool) (length : Option Nat) : Headers → Option Nat
  | [] => if chunked = some false then some 400 else none
  | h :: hs =>
    if h.name = "transfer-encoding" then bodyFault? (some (isChunked h)) length hs
    else if h.name = "content-length" ∧ chunked = none then
      match length? h.value with
      | none => some 400
      | some n =>
        if length.any (· ≠ n) then some 400
        else if maxLength < n then some 431
        else bodyFault? chunked (some n) hs
    else bodyFault? chunked length hs

-- The status of the response to a request that is refused before anybody looks at what it asks for.
def fault? (hs : Headers) : Option Nat :=
  if maxFields < hs.length then some 431 else bodyFault? none none hs

end Parley.Http.Framing
