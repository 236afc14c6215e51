import Parley.Message.Notice

namespace Parley

-- Where stamps for new notices come from: a clock and a count of the stamps that were given out.
structure Supply where
  issued : Nat
  -- The clock, in nanoseconds.
  now : Nat
deriving DecidableEq, Repr

namespace Supply

def start : Supply := ⟨0, 0⟩

-- A number in the form of a random UUID: its digits are spread over the groups, around the two
-- digits that tell the version and the variant.
def uuid (n : Nat) : String :=
  String.ofList <|
    (let high := Nat.toDigits 16 (n / Nat.pow 16 22)
     List.replicate (8 - high.length) '0' ++ high) ++
    '-' :: Text.hexPadded 4 (n / Nat.pow 16 18) ++
    '-' :: '4' :: Text.hexPadded 3 (n / Nat.pow 16 15) ++
    '-' :: '8' :: Text.hexPadded 3 (n / Nat.pow 16 12) ++
    '-' :: Text.hexPadded 12 n

def stamp (s : Supply) : Notice.Stamp := ⟨uuid s.issued, .ofNanos s.now⟩

def next (s : Supply) : Supply := { s with issued := s.issued + 1 }

end Supply
end Parley
