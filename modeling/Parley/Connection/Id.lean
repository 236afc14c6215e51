import Std.Data.ExtTreeMap

namespace Parley

structure ConnectionId where
  val : UInt64
deriving DecidableEq, Repr

namespace ConnectionId

instance : Ord ConnectionId := ⟨fun a b => compare a.val b.val⟩

theorem compare_eq (a b : ConnectionId) : compare a b = compare a.val b.val := rfl

instance : Std.TransOrd ConnectionId where
  eq_swap {a b} := by
    simp only [compare_eq]; exact Std.OrientedOrd.eq_swap
  isLE_trans {a b c} h h' := by
    simp only [compare_eq] at *; exact Std.TransOrd.isLE_trans h h'

instance : Std.LawfulEqOrd ConnectionId where
  compare_self {a} := by
    simp only [compare_eq]; exact Std.ReflOrd.compare_self
  eq_of_compare {a b} h := by
    cases a; cases b
    exact congrArg _ (Std.LawfulEqOrd.eq_of_compare h)

def text (id : ConnectionId) : String := s!"conn-{id.val.toNat}"

end ConnectionId

-- In which order a set of connections is gone through.  Nothing promises an order; whoever wants to speak
-- of all of them at once takes the order as a parameter.
structure Listing where
  -- The order may be another one each time, told apart by a number.
  arrange : Nat → List ConnectionId → List ConnectionId
  perm : ∀ n ids, (arrange n ids).Perm ids

-- The order of the numbers of the connections.
def Listing.ascending : Listing := ⟨fun _ ids => ids, fun _ _ => .refl _⟩

end Parley
