import Parley.Network.Address
import Parley.Settings

namespace Parley.Admission

-- How often a peer may ask.  Every request takes one cell; a cell comes back after each period, and no more of
-- them are kept than a burst may take.
structure Quota where
  -- The time in which one cell comes back, in nanoseconds.
  period : Nat
  burst : Nat
deriving DecidableEq, Repr

namespace Quota

-- The quota of some settings; none if nobody could ever ask.
def ofSettings? (s : Settings.RateLimit) : Option Quota :=
  if s.burst = 0 then none else some ⟨millis (max (1000 / max s.perSecond 1) 1), s.burst⟩

-- The time at which all cells will be back after one more is taken at `now`; none if there is no cell.  A
-- peer that never asked has all its cells.
def take? (q : Quota) (full : Option Nat) (now : Nat) : Option Nat :=
  let full := full.getD (now + q.period)
  if now + q.period * q.burst < full then none else some (max full now + q.period)

end Quota

-- For every peer that has asked, the time at which all its cells will be back.
abbrev Ledger := List (Network.Ip × Nat)

namespace Ledger

-- Takes a cell for a request of a peer; none if the peer has to wait.
def take? (l : Ledger) (q : Quota) (peer : Network.Ip) (now : Nat) : Option Ledger := do
  let full ← q.take? (l.lookup peer) now
  return (peer, full) :: l.filter fun (p, _) => p ≠ peer

end Ledger
end Parley.Admission
