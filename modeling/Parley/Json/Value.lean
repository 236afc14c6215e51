import Parley.Decimal.Double

namespace Parley.Json

open Decimal (Double)

-- A whole number that fits in 64 bits, signed or unsigned.
def Fits (i : Int) : Prop := -0x8000000000000000 ≤ i ∧ i < 0x10000000000000000

instance (i : Int) : Decidable (Fits i) := by unfold Fits; infer_instance

inductive Number where
  | whole (i : Int) (fits : Fits i)
  | double (x : Double)
deriving DecidableEq, Repr

-- JSON values.  Whole numbers that fit in 64 bits, signed or unsigned, are kept exactly; all other numbers are
-- doubles.  The members of an object stand in ascending order of their names, each name once.
inductive Value where
  | null
  | bool (b : Bool)
  | number (n : Number)
  | string (s : String)
  | array (items : List Value)
  | object (members : List (String × Value))
deriving Repr, Inhabited

namespace Value

mutual
def beq : Value → Value → Bool
  | null, null => true
  | bool a, bool b => a == b
  | number a, number b => a == b
  | string a, string b => a == b
  | array xs, array ys => beqItems xs ys
  | object xs, object ys => beqMembers xs ys
  | _, _ => false

def beqItems : List Value → List Value → Bool
  | [], [] => true
  | x :: xs, y :: ys => beq x y && beqItems xs ys
  | _, _ => false

def beqMembers : List (String × Value) → List (String × Value) → Bool
  | [], [] => true
  | (k, x) :: xs, (l, y) :: ys => k == l && beq x y && beqMembers xs ys
  | _, _ => false
end

mutual
theorem beq_iff : ∀ v w : Value, beq v w = true ↔ v = w
  | null, w => by cases w <;> simp [beq]
  | bool _, w => by cases w <;> simp [beq]
  | number _, w => by cases w <;> simp [beq]
  | string _, w => by cases w <;> simp [beq]
  | array xs, w => by cases w <;> simp [beq, beqItems_iff xs]
  | object xs, w => by cases w <;> simp [beq, beqMembers_iff xs]

theorem beqItems_iff : ∀ xs ys : List Value, beqItems xs ys = true ↔ xs = ys
  | [], ys => by cases ys <;> simp [beqItems]
  | x :: xs, ys => by cases ys <;> simp [beqItems, beq_iff x, beqItems_iff xs]

theorem beqMembers_iff : ∀ xs ys : List (String × Value), beqMembers xs ys = true ↔ xs = ys
  | [], ys => by cases ys <;> simp [beqMembers]
  | (k, x) :: xs, ys => by
    cases ys <;> simp [beqMembers, beq_iff x, beqMembers_iff xs, Prod.ext_iff, and_assoc]
end

instance : DecidableEq Value := fun v w => decidable_of_iff _ (beq_iff v w)

-- The members with one more; a member of the same name gives way to it.
def insertMember (name : String) (v : Value) : List (String × Value) → List (String × Value)
  | [] => [(name, v)]
  | (k, w) :: rest =>
    if name < k then (name, v) :: (k, w) :: rest
    else if name = k then (name, v) :: rest
    else (k, w) :: insertMember name v rest

-- An object from members in any order; of two members with one name the later counts.
def ofMembers (members : List (String × Value)) : Value :=
  object (members.foldl (fun ms (k, v) => insertMember k v ms) [])

-- A number that fits in 64 bits, and otherwise zero.
def whole (i : Int) : Value :=
  if h : Fits i then number (.whole i h) else number (.whole 0 (by decide))

def nat (n : Nat) : Value := whole n

end Value
end Parley.Json
