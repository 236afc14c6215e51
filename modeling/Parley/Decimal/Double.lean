namespace Parley.Decimal

-- A double, told apart from another by its bits.
structure Double where
  bits : UInt64
deriving DecidableEq, Repr, Inhabited

namespace Double

def ofFloat (x : Float) : Double := ⟨x.toBits⟩

def toFloat (x : Double) : Float := Float.ofBits x.bits

def zero : Double := ⟨0⟩

def negative (x : Double) : Bool := x.bits.toNat / 0x8000000000000000 = 1

-- The same magnitude with the other sign.
def neg (x : Double) : Double := ⟨x.bits ^^^ 0x8000000000000000⟩

-- The eleven bits of the exponent as they are stored.
def biased (x : Double) : Nat := x.bits.toNat / 0x10000000000000 % 0x800

-- The fifty-two bits after the leading one.
def fraction (x : Double) : Nat := x.bits.toNat % 0x10000000000000

def IsFinite (x : Double) : Prop := x.biased ≠ 2047

instance (x : Double) : Decidable x.IsFinite := by unfold IsFinite; infer_instance

def IsNan (x : Double) : Prop := x.biased = 2047 ∧ x.fraction ≠ 0

instance (x : Double) : Decidable x.IsNan := by unfold IsNan; infer_instance

-- A finite double is `± significand * 2 ^ exponent`.
def significand (x : Double) : Nat :=
  if x.biased = 0 then x.fraction else x.fraction + 0x10000000000000

def exponent (x : Double) : Int := (max x.biased 1 : Nat) - 1075

-- The doubles just below `2 ^ k` lie half as far apart as those just above it.
def IsBinade (x : Double) : Prop := x.fraction = 0 ∧ 1 < x.biased

instance (x : Double) : Decidable x.IsBinade := by unfold IsBinade; infer_instance

-- The nearest whole number to the magnitude of a finite double; a half is rounded up.
def magnitude (x : Double) : Nat :=
  if 0 ≤ x.exponent then x.significand * Nat.pow 2 x.exponent.toNat
  else
    let d := Nat.pow 2 (-x.exponent).toNat
    (2 * x.significand + d) / (2 * d)

-- The natural number below `bound` that comes nearest: zero for what is negative or not a number.
def toNatBelow (bound : Nat) (x : Double) : Nat :=
  if x.IsNan ∨ x.negative then 0
  else if x.IsFinite then min x.magnitude (bound - 1)
  else bound - 1

end Double
end Parley.Decimal
