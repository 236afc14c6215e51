import Parley.Json.Outline
import Parley.Text.Digits

namespace Parley.Json

open Decimal (Double)

-- The parts of a number, digits by value.
structure Numeral where
  negative : Bool
  whole : List Nat
  -- The digits after the point, if there is one.
  fraction : Option (List Nat)
  -- The sign and digits of the exponent, if there is one.
  exponent : Option (Bool × List Nat)
deriving DecidableEq, Repr

namespace Numeral

-- At least one digit.
def readDigits (cs : List Char) : Except Fault (List Nat × List Char) :=
  match Text.takeDigits cs with
  | ([], []) => .error .endedInNumber
  | ([], _) => .error .malformed
  | (ds, rest) => .ok (ds, rest)

-- The digits before the point: a leading zero stands alone.
def readWhole (cs : List Char) : Except Fault (List Nat × List Char) := do
  let (ds, rest) ← readDigits cs
  if ds.head? = some 0 ∧ ds.length ≠ 1 then .error .malformed else .ok (ds, rest)

def readFraction (cs : List Char) : Except Fault (Option (List Nat) × List Char) :=
  match cs with
  | '.' :: cs => (readDigits cs).map fun (ds, rest) => (some ds, rest)
  | cs => .ok (none, cs)

def readExponent (cs : List Char) : Except Fault (Option (Bool × List Nat) × List Char) :=
  match cs with
  | c :: cs' =>
    if c = 'e' ∨ c = 'E' then
      match cs' with
      | '-' :: cs => (readDigits cs).map fun (ds, rest) => (some (true, ds), rest)
      | '+' :: cs => (readDigits cs).map fun (ds, rest) => (some (false, ds), rest)
      | cs => (readDigits cs).map fun (ds, rest) => (some (false, ds), rest)
    else .ok (none, c :: cs')
  | [] => .ok (none, [])

-- A number at the front of a text, and what comes after it.
def read (cs : List Char) : Except Fault (Numeral × List Char) := do
  let (negative, cs) := match cs with
    | '-' :: cs => (true, cs)
    | cs => (false, cs)
  let (whole, cs) ← readWhole cs
  let (fraction, cs) ← readFraction cs
  let (exponent, cs) ← readExponent cs
  return ({ negative, whole, fraction, exponent }, cs)

-- Appends digits to a number while it stays below `2 ^ 64`; also the number of digits left over.
def gather (n : Nat) : List Nat → Nat × Nat
  | [] => (n, 0)
  | d :: ds => if n * 10 + d < 0x10000000000000000 then gather (n * 10 + d) ds else (n, ds.length + 1)

-- The double nearest to `10 ^ k`.
def powerOfTen (k : Nat) : Float := Float.ofScientific 1 false k

-- A double times a power of ten, or none if the product is too large.
def scale (x : Float) (e : Int) : Option Float :=
  if x == 0 then some x
  else if e > 308 then none
  else if 0 ≤ e then
    let y := x * powerOfTen e.toNat
    if y.isInf then none else some y
  else if -308 ≤ e then some (x / powerOfTen (-e).toNat)
  else scale (x / powerOfTen 308) (e + 308)
termination_by (-e).toNat
decreasing_by omega

-- The largest exponent that is taken at its word.
def exponentLimit : Nat := 0x80000000 - 1

def signed (negative : Bool) (x : Float) : Number :=
  .double (Double.ofFloat (if negative then -x else x))

-- What a number stands for; none if it is too large for a double.  A whole number that fits in 64 bits is kept
-- exactly.  Any other number becomes a double: the leading digits are gathered as long as they fit in 64 bits, and
-- the result is scaled by a power of ten, each of the two steps being rounded.
def value? (n : Numeral) : Option Number :=
  let (significand, left) := gather 0 n.whole
  match n.fraction, n.exponent, left with
  | none, none, 0 =>
    let i : Int := if n.negative then -significand else significand
    if h : Fits i then
      if n.negative ∧ significand = 0 then some (signed true 0) else some (.whole i h)
    else some (signed n.negative (Float.ofNat significand))
  | fraction, exponent, left =>
    let ds := fraction.getD []
    let (significand, unread) := gather significand ds
    let start : Int := left - (ds.length - unread : Nat)
    let (down, es) := exponent.getD (false, [])
    let e := Text.ofDigits 10 es
    if exponentLimit < e then
      if significand ≠ 0 ∧ ¬ down then none else some (signed n.negative 0)
    else (scale (Float.ofNat significand) (if down then start - e else start + e)).map
      (signed n.negative)

end Numeral
end Parley.Json
