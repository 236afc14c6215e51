import Parley.Exchange.Mailbox
import Parley.Session.Limits
import Parley.Session.Reaction
import Parley.Transport.Frame

namespace Parley.Session

-- The first whole millisecond at or after a point in time.
def wholeMillis (t : Nat) : Nat := (t + 999999) / 1000000 * 1000000

inductive Writer.Phase where
  -- About to choose what comes next.
  | choosing
  -- There was nothing to choose so far; `probing` says that the client may be probed meanwhile.
  | waiting (probing : Bool)
  -- The transport has a frame in hand; `asked` says that it had no room for it so far.
  | sending (f : Frame) (asked : Bool)
  -- The transport is being closed, since the given time.
  | closing (since : Nat)
  -- The exchange is being asked to remove the connection.
  | leaving (k : Courier)
  | done
deriving DecidableEq, Repr

-- The writer of a session.  It hands the notices of a mailbox to the transport, one at a time, and a close frame
-- once the mailbox has ended.  While the mailbox is empty it probes the client from time to time.  After its
-- session is told to stop it has a time of grace, and then leaves whatever is left.
structure Writer where
  phase : Writer.Phase
  -- When the client is probed next.
  nextProbe : Nat
deriving DecidableEq, Repr

namespace Writer

-- Probes are a millisecond apart at least.
def period (l : Limits) : Nat := max l.pingInterval (millis 1)

def idle : Writer := ⟨.done, 0⟩

def start (l : Limits) (now : Nat) : Writer := ⟨.choosing, now + period l⟩

-- Probes that are late by more than this put off the ones after them.
def lateness : Nat := millis 5

-- When the client is probed after a probe at `now`.
def probeAfter (w : Writer) (l : Limits) (now : Nat) : Nat :=
  if w.nextProbe + lateness < now then now + period l else w.nextProbe + period l

-- The time of grace, which is whole milliseconds, is over.
def IsExpired (l : Limits) (cancelledAt : Option Nat) (now : Nat) : Prop :=
  ∃ t ∈ cancelledAt, t + l.writeGrace ≤ now

instance (l : Limits) (cancelledAt : Option Nat) (now : Nat) :
    Decidable (IsExpired l cancelledAt now) :=
  match cancelledAt with
  | none => isFalse (by simp [IsExpired])
  | some t => decidable_of_iff (t + l.writeGrace ≤ now) (by simp [IsExpired])

inductive Choice where
  | giveUp
  | frame (f : Frame)
  | wait
deriving DecidableEq, Repr

-- What comes next: the end of grace goes before notices, and notices before probes.
def await (w : Writer) (l : Limits) (now : Nat) (m : Mailbox) (probing : Bool) : Choice :=
  if IsExpired l m.cancelledAt now then .giveUp
  else
    match m.receive with
    | .item n => .frame (.text n.text)
    | .ended => .frame .close
    | .empty => if probing ∧ wholeMillis w.nextProbe ≤ now then .frame (.ping []) else .wait

-- Whether the client may be probed is decided before the choice, and stands until something is chosen.
abbrev choose (w : Writer) (l : Limits) (now : Nat) (m : Mailbox) : Choice :=
  w.await l now m (m.cancelledAt = none)

-- The writer with the chosen frame in hand.
def take (w : Writer) (l : Limits) (now : Nat) (f : Frame) : Writer where
  phase := .sending f false
  nextProbe := if f = .ping [] then w.probeAfter l now else w.nextProbe

-- How the transport does with the frame in hand.
inductive Outcome where
  | sent
  | failed
  | pending
deriving DecidableEq, Repr

-- The writer after the transport has been asked about the frame in hand; none if it has to wait.
def sent? (w : Writer) (l : Limits) (now : Nat) (m : Mailbox) (f : Frame) (asked : Bool) :
    Outcome → Option Writer
  | .sent => some { w with phase := if f = .close then .closing now else .choosing }
  | .failed => some { w with phase := .closing now }
  | .pending =>
    if IsExpired l m.cancelledAt now then some { w with phase := .closing now }
    else if asked then none
    else some { w with phase := .sending f true }

-- The transport does not close in time, which is whole milliseconds as well.
def IsStuck (l : Limits) (since now : Nat) : Prop := since + l.writeGrace ≤ now

instance (l : Limits) (since now : Nat) : Decidable (IsStuck l since now) := by
  unfold IsStuck; infer_instance

end Writer
end Parley.Session
