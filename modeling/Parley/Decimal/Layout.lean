import Parley.Decimal.Shortest

namespace Parley.Decimal

-- Which doubles are written with the point in its place.
structure Layout where
  -- The places of the leading digit for which no exponent is written; none: for all.
  positional : Option (Int × Int)
  -- Whether a whole number ends in `.0`.
  point : Bool

namespace Layout

-- An exponent: always with its sign, and with no more digits than it needs.
def exponentText (e : Int) : List Char :=
  (if e < 0 then '-' else '+') :: Nat.toDigits 10 e.natAbs

-- The digits of a decimal whose leading digit has place `lead`, with the point in its place.
def positionalText (l : Layout) (ds : List Char) (lead : Int) : List Char :=
  let whole := (lead + 1).toNat
  if lead < 0 then ['0', '.'] ++ List.replicate (-lead - 1).toNat '0' ++ ds
  else if whole < ds.length then ds.take whole ++ ['.'] ++ ds.drop whole
  else ds ++ List.replicate (whole - ds.length) '0' ++ (if l.point then ['.', '0'] else [])

def scientificText (ds : List Char) (lead : Int) : List Char :=
  match ds with
  | [] => []
  | [d] => d :: 'e' :: exponentText lead
  | d :: ds => d :: '.' :: ds ++ 'e' :: exponentText lead

-- The text of a finite double: always by its shortest decimal, either with the point in its place or as a leading
-- digit and an exponent.
def text (l : Layout) (x : Double) : List Char :=
  let d := shortest x
  let ds := Nat.toDigits 10 d.digits
  let lead := d.exponent + ds.length - 1
  let body :=
    match l.positional with
    | none => l.positionalText ds lead
    | some (low, high) =>
      if low ≤ lead ∧ lead ≤ high then l.positionalText ds lead else scientificText ds lead
  if x.negative then '-' :: body else body

end Layout
end Parley.Decimal
