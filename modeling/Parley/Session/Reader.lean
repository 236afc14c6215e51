import Parley.Message.Request
import Parley.Session.Limits
import Parley.Session.Reaction
import Parley.Transport.Frame

namespace Parley.Session

-- The reader of a session.  It takes frames one after the other until one of them, or its deadline, makes it stop.
-- A pong moves the deadline, and nothing else does.
structure Reader where
  running : Bool
  -- When the client has been silent for too long.
  deadline : Nat
  -- Takes the commands of the client to the exchange.
  courier : Courier
deriving DecidableEq, Repr

-- What a frame means to the reader.
inductive Verdict where
  | payload (p : Except Request.Unreadable Request)
  | alive
  | ignore
  | stop

namespace Reader

def idle : Reader := ⟨false, 0, .idle⟩

def start (l : Limits) (now : Nat) : Reader := ⟨true, now + l.pongWait, .idle⟩

-- Nothing reaches a reader while its courier is away.
def IsListening (r : Reader) : Prop := r.running ∧ r.courier = .idle

instance (r : Reader) : Decidable r.IsListening := by unfold IsListening; infer_instance

def judge (l : Limits) (f : Frame) : Verdict :=
  if (oversize? f.size l.frameSize).isSome then .stop
  else
    match f with
    | .text s => .payload (Request.ofText s)
    | .binary bs => .payload (Request.ofOctets bs)
    | .pong _ => .alive
    | .ping _ => .ignore
    | .close => .stop

-- The silence that is allowed, whole milliseconds from the last pong, is over.
def IsOverdue (r : Reader) (now : Nat) : Prop := r.deadline ≤ now

instance (r : Reader) (now : Nat) : Decidable (r.IsOverdue now) := by unfold IsOverdue; infer_instance

def stop (r : Reader) : Reader := { r with running := false }

-- The reader after a frame.
def after (r : Reader) (l : Limits) (now : Nat) (f : Frame) : Reader :=
  match judge l f with
  | .alive => { r with deadline := now + l.pongWait }
  | .stop => r.stop
  | .payload _ | .ignore => r

end Reader
end Parley.Session
