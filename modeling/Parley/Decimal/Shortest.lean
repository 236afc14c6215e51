import Parley.Decimal.Double

namespace Parley.Decimal

-- The decimal `digits * 10 ^ exponent`.
structure Scaled where
  digits : Nat
  exponent : Int
deriving DecidableEq, Repr

-- A positive double against a power of ten, all in integers: the value is `value * two`, the ends of
-- its interval are `low * two` and `high * two`, and a decimal `d * 10 ^ grid` is `d * ten`.
structure Grid where
  low : Nat
  value : Nat
  high : Nat
  two : Nat
  ten : Nat
  closed : Bool

def Grid.of (x : Double) (grid : Int) : Grid where
  low := 4 * x.significand - (if x.IsBinade then 1 else 2)
  value := 4 * x.significand
  high := 4 * x.significand + 2
  two := Nat.pow 2 (x.exponent - 2).toNat * Nat.pow 10 (-grid).toNat
  ten := Nat.pow 10 grid.toNat * Nat.pow 2 (2 - x.exponent).toNat
  closed := x.significand % 2 = 0

-- Whether `d` on the grid reads back as the double.
def Grid.Holds (g : Grid) (d : Nat) : Prop :=
  if g.closed then g.low * g.two ≤ d * g.ten ∧ d * g.ten ≤ g.high * g.two
  else g.low * g.two < d * g.ten ∧ d * g.ten < g.high * g.two

instance (g : Grid) (d : Nat) : Decidable (g.Holds d) := by unfold Grid.Holds; infer_instance

-- The neighbour of the value on the grid that reads back: the nearer one if both do, and the even one
-- if both are equally near.
def Grid.nearest? (g : Grid) : Option Nat :=
  let below := g.value * g.two / g.ten
  let above := below + 1
  match decide (g.Holds below), decide (g.Holds above) with
  | false, false => none
  | true, false => some below
  | false, true => some above
  | true, true =>
    let down := g.value * g.two - below * g.ten
    let up := above * g.ten - g.value * g.two
    if down < up ∨ (down = up ∧ below % 2 = 0) then some below else some above

-- The place of the leading digit of a positive number, the units being place zero.
def leadingPlace (n : Nat) : Nat := (Nat.toDigits 10 n).length - 1

-- The exponent of ten of the leading digit of `num / den`.
def leadingExponent (num den : Nat) : Int :=
  if den ≤ num then leadingPlace (num / den)
  else
    let k := leadingPlace (den / num)
    if den ≤ num * Nat.pow 10 k then -k else -(k + 1)

-- A decimal without zeros at its end.
def Scaled.trim (d : Scaled) (fuel : Nat) : Scaled :=
  match fuel with
  | 0 => d
  | fuel + 1 =>
    if d.digits % 10 = 0 ∧ d.digits ≠ 0 then trim ⟨d.digits / 10, d.exponent + 1⟩ fuel else d

-- The shortest decimal for the magnitude of a finite double that reads back as it, and among the shortest the
-- nearest.  A double stands for every real that rounds to it: an interval around its value, whose ends belong to
-- it iff the significand is even.  For one digit, two digits and so on, the two neighbours of the value on the
-- grid of decimals with so many digits are tried; the first grid with a neighbour in the interval decides.
-- Seventeen digits always suffice.
def shortest (x : Double) : Scaled :=
  if x.significand = 0 then ⟨0, 0⟩
  else
    let lead := leadingExponent (x.significand * Nat.pow 2 x.exponent.toNat) (Nat.pow 2 (-x.exponent).toNat)
    let candidate (count : Nat) : Option Scaled :=
      let grid := lead - count
      ((Grid.of x grid).nearest?).map (⟨·, grid⟩)
    ((List.range 17).findSome? candidate).getD ⟨0, 0⟩ |>.trim 20

-- The double nearest to `d`; infinity if `d` is beyond all doubles.  Decimals that are far too large or
-- far too small for a double are not even scaled.
def Scaled.nearest (d : Scaled) : Float :=
  let lead := d.exponent + (Nat.toDigits 10 d.digits).length
  if d.digits = 0 ∨ lead < -400 then 0
  else if 400 < lead then Float.ofBits 0x7FF0000000000000
  else Float.ofScientific d.digits (d.exponent < 0) d.exponent.natAbs

end Parley.Decimal
