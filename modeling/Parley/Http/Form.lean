import Parley.Text.Digits
import Parley.Text.Utf8

namespace Parley.Http.Form

-- The octets of a text in which percent signs stand for octets.  A percent sign without two digits stands
-- for itself.
def octets : List UInt8 → List UInt8
  | 37 :: a :: b :: bs =>
    match Text.hexDigit? (Char.ofNat a.toNat), Text.hexDigit? (Char.ofNat b.toNat) with
    | some hi, some lo => (16 * hi + lo).toUInt8 :: octets bs
    | _, _ => 37 :: octets (a :: b :: bs)
  | b :: bs => b :: octets bs
  | [] => []

-- What a name or a value stands for.
def decode (cs : List Char) : String :=
  let spaced := cs.map fun c => if c = '+' then ' ' else c
  String.ofList (Text.Utf8.decodeLossy (octets (Text.Utf8.encode spaced)))

-- The pieces of a text between the places where `sep` stands.
def pieces (sep : Char) : List Char → List (List Char)
  | [] => [[]]
  | c :: cs =>
    if c = sep then [] :: pieces sep cs
    else
      match pieces sep cs with
      | p :: ps => (c :: p) :: ps
      | [] => [[c]]

-- A name and a value; a value that is left out is empty.
def pair (cs : List Char) : String × String :=
  (decode (cs.takeWhile (· ≠ '=')), decode ((cs.dropWhile (· ≠ '=')).drop 1))

-- The names and values of a query: pairs with ampersands between them, a plus sign for a space, and octets as a
-- percent sign with two hexadecimal digits.  Empty pairs are passed over.
def pairs (cs : List Char) : List (String × String) :=
  ((pieces '&' cs).filter fun p => !p.isEmpty).map pair

end Parley.Http.Form
