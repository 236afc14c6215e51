import Parley.Message.Notice
import Parley.Transport.Pipe

namespace Parley

-- A writing end of its own that a session has for an answer to its client.
inductive Mailbox.Loan where
  | absent
  -- The answer is still to be offered.
  | fresh
  -- The answer was offered, and the writing end will be given back.
  | spent
deriving DecidableEq, Repr

-- Notices for a connection wait in its mailbox until they are written to the client.  The exchange holds the only
-- lasting writing end; the session has the reading end, and gets a writing end for a while whenever it has an
-- answer of its own.
structure Mailbox where
  -- It counts as writable as long as the exchange holds on.
  pipe : Pipe Notice
  -- When the connection was told to stop, if it was.
  cancelledAt : Option Nat
  loan : Mailbox.Loan
deriving DecidableEq, Repr

namespace Mailbox

-- A mailbox has room for one notice at least.
def new (capacity : Nat) : Mailbox := ⟨.new (max capacity 1), none, .absent⟩

-- Whether there may be a mailbox for so many notices.
def Allows (capacity : Nat) : Prop := Pipe.IsCapacity (max capacity 1)

instance (capacity : Nat) : Decidable (Allows capacity) := by unfold Allows; infer_instance

-- Tells the connection to stop; only the first time counts.
def cancel (m : Mailbox) (now : Nat) : Mailbox :=
  { m with cancelledAt := m.cancelledAt <|> some now }

-- The exchange lets go.
def release (m : Mailbox) : Mailbox := { m with pipe := m.pipe.closeWriter }

def put (m : Mailbox) (n : Notice) : Mailbox := { m with pipe := m.pipe.send n }

-- The session asks for a writing end of its own, and gets one if the exchange still holds on.
def lend (m : Mailbox) : Mailbox :=
  if m.pipe.writable ∧ m.loan = .absent then { m with loan := .fresh } else m

-- The session offers its answer, whatever the exchange has done since; it is lost if there is no room.
def reply (m : Mailbox) (n : Notice) : Mailbox :=
  if m.loan = .fresh then
    if m.pipe.readable ∧ ¬ m.pipe.IsFull then
      { m with pipe := { m.pipe with queue := m.pipe.queue ++ [n] }, loan := .spent }
    else { m with loan := .spent }
  else m

-- The session has no more use for its writing end.
def giveBack (m : Mailbox) : Mailbox := { m with loan := .absent }

-- What there is to be taken: the mailbox has ended once it is empty and nobody has a writing end.
def receive (m : Mailbox) : Pipe.Received Notice :=
  match m.pipe.queue with
  | n :: _ => .item n
  | [] => if m.pipe.writable ∨ m.loan ≠ .absent then .empty else .ended

-- Nobody reads the mailbox any more.
def abandon (m : Mailbox) : Mailbox := { m with pipe := m.pipe.closeReader }

end Mailbox
end Parley
