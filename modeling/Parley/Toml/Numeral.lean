import Parley.Decimal.Shortest
import Parley.Text.Digits
import Parley.Toml.Branch

namespace Parley.Toml

open Decimal (Double)

-- The digits at the front of a text, by value, in which a line may stand before a digit.
def takeRow (digit? : Char → Option Nat) : List Char → List Nat × List Char
  | '_' :: c :: cs =>
    match digit? c with
    | some d => let (ds, rest) := takeRow digit? cs; (d :: ds, rest)
    | none => ([], '_' :: c :: cs)
  | c :: cs =>
    match digit? c with
    | some d => let (ds, rest) := takeRow digit? cs; (d :: ds, rest)
    | none => ([], c :: cs)
  | [] => ([], [])

-- At least one digit; the first stands without a line before it.
def readRow (digit? : Char → Option Nat) (cs : List Char) : Option (List Nat × List Char) :=
  match cs with
  | '_' :: _ => none
  | cs =>
    match takeRow digit? cs with
    | ([], _) => none
    | r => some r

def octal? (c : Char) : Option Nat := (Text.digit? c).filter (· < 8)

def binary? (c : Char) : Option Nat := (Text.digit? c).filter (· < 2)

-- Whether a minus sign stands in front, and what comes after a sign.
def readSign : List Char → Bool × List Char
  | '-' :: cs => (true, cs)
  | '+' :: cs => (false, cs)
  | cs => (false, cs)

-- Decimal digits; a leading zero stands alone.
def readWhole (cs : List Char) : Option (List Nat × List Char) :=
  match cs with
  | '0' :: cs => some ([0], cs)
  | cs => readRow Text.digit? cs

-- A whole number, if it fits in 64 bits with its sign.
def signed? (negative : Bool) (n : Nat) : Option Int :=
  let i : Int := if negative then -n else n
  if -0x8000000000000000 ≤ i ∧ i < 0x8000000000000000 then some i else none

-- A number in a base other than ten, which has no sign.
def readBase (base : Nat) (digit? : Char → Option Nat) (cs : List Char) : Option (Int × List Char) := do
  let (ds, rest) ← readRow digit? cs
  return (← signed? false (Text.ofDigits base ds), rest)

def readInteger (cs : List Char) : Option (Int × List Char) :=
  match cs with
  | '0' :: 'x' :: cs => readBase 16 Text.hexDigit? cs
  | '0' :: 'o' :: cs => readBase 8 octal? cs
  | '0' :: 'b' :: cs => readBase 2 binary? cs
  | cs => do
    let (negative, cs) := readSign cs
    let (ds, rest) ← readWhole cs
    return (← signed? negative (Text.ofDigits 10 ds), rest)

-- The digits after a point.
def readFraction (cs : List Char) : Option (List Nat × List Char) :=
  match cs with
  | '.' :: cs => readRow Text.digit? cs
  | _ => none

def readExponent (cs : List Char) : Option (Int × List Char) :=
  match cs with
  | c :: cs =>
    if c = 'e' ∨ c = 'E' then do
      let (negative, cs) := readSign cs
      let (ds, rest) ← readRow Text.digit? cs
      let e : Int := Text.ofDigits 10 ds
      return (if negative then -e else e, rest)
    else none
  | [] => none

-- The double that a decimal stands for; none if it is too large.
def double? (negative : Bool) (ds : List Nat) (exponent : Int) : Option Double :=
  let x := Decimal.Scaled.nearest ⟨Text.ofDigits 10 ds, exponent⟩
  if negative then some (Double.ofFloat (-x)) else if x.isInf then none else some (Double.ofFloat x)

-- Infinity or not a number, after the sign.
def readSpecial (negative : Bool) : List Char → Option (Double × List Char)
  | 'i' :: 'n' :: 'f' :: cs => some (⟨if negative then 0xFFF0000000000000 else 0x7FF0000000000000⟩, cs)
  | 'n' :: 'a' :: 'n' :: cs => some (⟨if negative then 0xFFF8000000000000 else 0x7FF8000000000000⟩, cs)
  | _ => none

-- A number with a point, an exponent, or both.
def readFloat (cs : List Char) : Option (Double × List Char) :=
  let (negative, cs) := readSign cs
  readSpecial negative cs <|> do
    let (ds, cs) ← readWhole cs
    match readFraction cs with
    | some (fs, cs) =>
      let (e, cs) := (readExponent cs).getD (0, cs)
      return (← double? negative (ds ++ fs) (e - fs.length), cs)
    | none =>
      let (e, cs) ← readExponent cs
      return (← double? negative ds e, cs)

end Parley.Toml
