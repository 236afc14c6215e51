import Parley.Decimal.Double
import Parley.Decimal.Layout
import Parley.Decimal.Shortest
import Parley.Settings.Setting
import Parley.Text.Blank

namespace Parley.Settings

open Decimal (Double Layout)

-- What a variable holds, by its look.
inductive Scalar where
  | bool (b : Bool)
  | integer (i : Int)
  | float (x : Double)
  | text (s : String)
deriving DecidableEq, Repr

namespace Scalar

-- Infinity or not a number, in any case of letters.
def special? (cs : List Char) : Option Float :=
  let word := String.ofList (cs.map Char.toLower)
  if word = "inf" ∨ word = "infinity" then some (Float.ofBits 0x7FF0000000000000)
  else if word = "nan" then some (Float.ofBits 0x7FF8000000000000)
  else none

-- An exponent that ends the text; nothing is an exponent of zero.
def exponent? : List Char → Option Int
  | [] => some 0
  | c :: cs => if c = 'e' ∨ c = 'E' then Text.readSigned cs else none

-- A number with digits before or after its point, which it need not have.
def decimal? (cs : List Char) : Option Float := do
  let (ds, cs) := Text.takeDigits cs
  let (fs, cs) :=
    match cs with
    | '.' :: cs => Text.takeDigits cs
    | cs => ([], cs)
  if ds = [] ∧ fs = [] then none
  else
    let e ← exponent? cs
    return Decimal.Scaled.nearest ⟨Text.ofDigits 10 (ds ++ fs), e - fs.length⟩

def float? (cs : List Char) : Option Double :=
  let (negative, cs) := match cs with
    | '-' :: cs => (true, cs)
    | '+' :: cs => (false, cs)
    | cs => (false, cs)
  (special? cs <|> decimal? cs).map fun x => Double.ofFloat (if negative then -x else x)

-- A whole number that fits in 64 bits with its sign.
def integer? (cs : List Char) : Option Int :=
  (Text.readSigned cs).filter fun i => -0x8000000000000000 ≤ i ∧ i < 0x8000000000000000

-- A truth value, else a whole number, else any number, else a text.
def ofText (s : String) : Scalar :=
  if Text.SameLetters s "true" then bool true
  else if Text.SameLetters s "false" then bool false
  else
    match integer? s.toList with
    | some i => integer i
    | none =>
      match float? s.toList with
      | some x => float x
      | none => text s

-- Numbers are written with the point in its place, and whole ones without it.
def layout : Layout := ⟨none, false⟩

def floatText (x : Double) : String :=
  if x.IsNan then "NaN"
  else if ¬ x.IsFinite then (if x.negative then "-inf" else "inf")
  else String.ofList (layout.text x)

def affirmative : List String := ["true", "on", "yes"]
def negative : List String := ["false", "off", "no"]

-- Whether a text is one of some words, in any case of letters.
def isOneOf (words : List String) (s : String) : Bool := words.any fun w => Text.SameLetters s w

def toText : Scalar → String
  | bool b => if b then "true" else "false"
  | integer i => toString i
  | float x => floatText x
  | text s => s

def toFlag? : Scalar → Option Bool
  | bool b => some b
  | integer i => some (i ≠ 0)
  | float x => some (x.IsNan ∨ x.significand ≠ 0)
  | text s =>
    if isOneOf ("1" :: affirmative) s then some true
    else if isOneOf ("0" :: negative) s then some false
    else none

def toNumber? : Scalar → Option Nat
  | bool b => some (if b then 1 else 0)
  | integer i => if 0 ≤ i then some i.toNat else none
  | float x => some (x.toNatBelow (0x10000000000000000))
  | text s =>
    if isOneOf affirmative s then some 1 else if isOneOf negative s then some 0 else none

-- A scalar as a setting holds it, if it can.
def convert? : (k : Setting.Kind) → Scalar → Option k.Content
  | .text, v => some v.toText
  | .flag, v => v.toFlag?
  | .number bound, v => v.toNumber?.filter (· < bound)

-- What a setting holds, as a scalar.
def ofContent : (k : Setting.Kind) → k.Content → Scalar
  | .text, s => text s
  | .flag, b => bool b
  | .number _, n => integer (Int.ofNat n)

-- A setting as a scalar.
def ofSetting (s : Settings) (x : Setting) : Scalar := ofContent x.kind (x.get s)

end Scalar

end Parley.Settings
