namespace Parley.Admission

-- Slots for open connections: how many are held, and how many have ever been.  A slot is reserved before a
-- connection is accepted and is held until the connection ends; no more are held than the limit allows.
structure Slots where
  held : Nat := 0
  -- What is shown as the number of open connections; it begins at zero, whatever is held then.
  shown : Int := 0
  total : Nat := 0
deriving DecidableEq, Repr

namespace Slots

-- Reserves a slot, unless `limit` slots are held.
def acquire? (s : Slots) (limit : Nat) : Option Slots :=
  if s.held < limit then
    some { held := s.held + 1, shown := s.shown + 1, total := s.total + 1 }
  else none

-- Gives back a slot that is held.
def release (s : Slots) : Slots :=
  { s with held := s.held - 1, shown := s.shown - 1 }

end Slots
end Parley.Admission
